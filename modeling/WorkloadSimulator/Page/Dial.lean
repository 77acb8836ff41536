import Mathlib

/-!
# The dial of a query widget

`query_dial.js` with its `jquery.knob` and `CodeMirror` plugins. A dial is one input element:
it takes the rate that the user configures, and while the workload runs it shows the rate that
the server has measured. What `attr('value')` reads is the text of that element, so there is
one `value`.
-/

namespace WorkloadSimulator

/-! ## The knob -/

/-- `Math.max(Math.min(nv, opt.max), opt.min)`, with `data-min` zero. -/
def clamp (max nv : Int) : Nat := (Max.max (Min.min nv max) 0).toNat

/-- What is clamped is not above the maximum. -/
theorem clamp_le (max nv : Int) : clamp max nv ≤ max.toNat := by
  unfold clamp
  omega

/-- A number within the bounds stays. -/
theorem clamp_of_le {max : Int} {n : Nat} (h : n ≤ max.toNat) : clamp max n = n := by
  unfold clamp
  omega

/-- The maximum of the dials when the page has the maximum `dialMaxValue`: zero counts as
    none given. -/
def dialMax (dialMaxValue : Int) : Int := if dialMaxValue = 0 then 100 else dialMaxValue

/-- A knob over its input: the number shown stands between zero and the maximum. -/
structure Dial where
  max : Int
  readOnly : Bool
  value : Nat
  le_max : value ≤ max.toNat

namespace Dial

@[ext] theorem ext {d d' : Dial} (hmax : d.max = d'.max) (hro : d.readOnly = d'.readOnly)
    (hval : d.value = d'.value) : d = d' := by
  cases d
  cases d'
  simp_all

/-- `k.val(nv)`. -/
def val (d : Dial) (nv : Int) : Dial :=
  { d with value := clamp d.max nv, le_max := clamp_le d.max nv }

/-- A clone of `base-dial` after `knob`. -/
def base (dialMaxValue : Int) (readOnly : Bool) : Dial :=
  { max := dialMax dialMaxValue, readOnly, value := 0, le_max := Nat.zero_le _ }

/-- `setDialValue`. -/
def setDialValue (d : Dial) (value : ℚ) : Dial :=
  if (d.value : ℚ) ≠ value then d.val ⌊value⌋ else d

/-- The dial that `replaceDial` puts in place of the one that is there. -/
def replace (dialMaxValue : Int) (readOnly : Bool) (newValue : ℚ) : Dial :=
  (base dialMaxValue readOnly).setDialValue newValue

@[simp] theorem val_max (d : Dial) (nv : Int) : (d.val nv).max = d.max := rfl
@[simp] theorem val_readOnly (d : Dial) (nv : Int) : (d.val nv).readOnly = d.readOnly := rfl
@[simp] theorem val_value (d : Dial) (nv : Int) : (d.val nv).value = clamp d.max nv := rfl

@[simp] theorem setDialValue_max (d : Dial) (v : ℚ) : (d.setDialValue v).max = d.max := by
  unfold setDialValue
  split <;> rfl

@[simp] theorem setDialValue_readOnly (d : Dial) (v : ℚ) :
    (d.setDialValue v).readOnly = d.readOnly := by
  unfold setDialValue
  split <;> rfl

/-- The dial shows the value in whole numbers, as far as its bounds allow. The comparison
    with the value shown saves a redraw and nothing else. -/
@[simp] theorem setDialValue_value (d : Dial) (v : ℚ) :
    (d.setDialValue v).value = clamp d.max ⌊v⌋ := by
  unfold setDialValue
  split
  · rfl
  · rename_i heq
    obtain rfl : (d.value : ℚ) = v := by simpa using heq
    rw [Int.floor_natCast, clamp_of_le d.le_max]

@[simp] theorem replace_max (m : Int) (ro : Bool) (v : ℚ) :
    (replace m ro v).max = dialMax m := by
  simp [replace, base]

@[simp] theorem replace_readOnly (m : Int) (ro : Bool) (v : ℚ) :
    (replace m ro v).readOnly = ro := by
  simp [replace, base]

@[simp] theorem replace_value (m : Int) (ro : Bool) (v : ℚ) :
    (replace m ro v).value = clamp (dialMax m) ⌊v⌋ := by
  simp [replace, base]

end Dial

/-! ## The editor -/

/-- Split a text at `/\r?\n/` and join its lines with `\n`. -/
def joinLines : List Char → List Char
  | '\r' :: '\n' :: s => '\n' :: joinLines s
  | c :: s => c :: joinLines s
  | [] => []

/-- What `getValue` returns after `setValue(s)`. -/
def editorText (s : String) : String := String.ofList (joinLines s.toList)

/-! ## The widget -/

/-- One entry of a workload, as it is posted, cached and saved. -/
structure WidgetInfo where
  query : String
  qps : ℚ
  deriving DecidableEq

/-- A query widget: the text of its editor, its dial, and the rate that `unfreeze` puts on
    the dial. -/
structure Widget where
  query : String
  readOnly : Bool
  dial : Dial
  dialValue : ℚ

namespace Widget

/-- `new QueryWidget()`. -/
def new (dialMaxValue : Int) : Widget :=
  { query := "", readOnly := false, dial := .replace dialMaxValue false 0, dialValue := 0 }

/-- What the widget adds to a workload. -/
def info (w : Widget) : WidgetInfo := ⟨w.query, w.dial.value⟩

/-- The user edits the text. -/
def edit (text : String) (w : Widget) : Widget := { w with query := text }

/-- The user turns the dial, or types a number into it. -/
def turn (nv : Int) (w : Widget) : Widget := { w with dial := w.dial.val nv }

def setDialValue (v : ℚ) (w : Widget) : Widget := { w with dial := w.dial.setDialValue v }

/-- `replaceDial(false, …)` with the value shown, for a new maximum. -/
def reloadDial (dialMaxValue : Int) (w : Widget) : Widget :=
  { w with dial := .replace dialMaxValue false w.dial.value }

def freeze (dialMaxValue : Int) (w : Widget) : Widget :=
  { w with
    readOnly := true
    dialValue := w.dial.value
    dial := .replace dialMaxValue true w.dial.value }

def unfreeze (dialMaxValue : Int) (w : Widget) : Widget :=
  { w with readOnly := false, dial := .replace dialMaxValue false w.dialValue }

/-- The widget that `loadWorkload` makes for an entry. -/
def load (dialMaxValue : Int) (entry : WidgetInfo) : Widget :=
  { new dialMaxValue with
    query := editorText entry.query
    dialValue := entry.qps }.unfreeze dialMaxValue

@[simp] theorem info_qps (w : Widget) : w.info.qps = w.dial.value := rfl
@[simp] theorem edit_dial (t : String) (w : Widget) : (w.edit t).dial = w.dial := rfl
@[simp] theorem edit_dialValue (t : String) (w : Widget) :
    (w.edit t).dialValue = w.dialValue := rfl
@[simp] theorem turn_dial (nv : Int) (w : Widget) : (w.turn nv).dial = w.dial.val nv := rfl
@[simp] theorem turn_dialValue (nv : Int) (w : Widget) :
    (w.turn nv).dialValue = w.dialValue := rfl
@[simp] theorem setDialValue_dial (v : ℚ) (w : Widget) :
    (w.setDialValue v).dial = w.dial.setDialValue v := rfl
@[simp] theorem setDialValue_dialValue (v : ℚ) (w : Widget) :
    (w.setDialValue v).dialValue = w.dialValue := rfl
@[simp] theorem freeze_dialValue (m : Int) (w : Widget) :
    (w.freeze m).dialValue = w.dial.value := rfl
@[simp] theorem freeze_dial (m : Int) (w : Widget) :
    (w.freeze m).dial = .replace m true w.dial.value := rfl
@[simp] theorem unfreeze_dial (m : Int) (w : Widget) :
    (w.unfreeze m).dial = .replace m false w.dialValue := rfl
@[simp] theorem unfreeze_dialValue (m : Int) (w : Widget) :
    (w.unfreeze m).dialValue = w.dialValue := rfl
@[simp] theorem reloadDial_dial (m : Int) (w : Widget) :
    (w.reloadDial m).dial = .replace m false w.dial.value := rfl
@[simp] theorem reloadDial_dialValue (m : Int) (w : Widget) :
    (w.reloadDial m).dialValue = w.dialValue := rfl

end Widget

end WorkloadSimulator
