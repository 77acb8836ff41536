import WorkloadSimulator.Stress.Plancache
import WorkloadSimulator.Stress.Server

/-!
# The answers of `/live/stats`

`plancacheFactory` and `PlancacheStats` of `stress/plancache.py`, and `get_live_stats` of
`stress/server.py`. There is one process for each of the settings that have been asked for,
which polls the plancache (`PlancacheLoop`) into two dictionaries of a manager. A request copies
one of them and then the other, and the process may poll, or die, in between.

An access of a request is one step here, `is_alive` with the copy behind it. In the code the
process may die between the two as well, and the copy is made all the same. A process that dies
while it holds the lock, for which the copy waits, is left out.

`σ` is what `get_dict` gives for settings, by which they are compared. The server handles one
request at a time.
-/

namespace WorkloadSimulator.Stress

/-- An instance of the class of that name, with its process and its manager. -/
structure PlancacheStats where
  loop : PlancacheLoop
  pcProc : Bool
  manager : Bool

namespace PlancacheStats

def new : PlancacheStats := ⟨.init, true, true⟩

/-- The two dictionaries can be read: no `PlancacheBroken` is raised. -/
def isAlive (p : PlancacheStats) : Bool := p.pcProc && p.manager

end PlancacheStats

/-- A request to `/live/stats` at its next access to its `PlancacheStats`. -/
inductive LiveHandler (σ : Type) where
  | idle
  | getStats (settings : σ)
  | getMetrics (settings : σ) (stats : AList fun _ : String => ℚ)

inductive LiveReply where
  | running (plancache : AList fun _ : String => ℚ) (metrics : AList fun _ : String => String)
  | stopped (error : ServerException)
  /-- An exception that nothing catches. -/
  | internalError

/-- The part of the server that answers `/live/stats`. -/
structure LiveServer (σ : Type) where
  gPlancaches : AList fun _ : σ => PlancacheStats
  handler : LiveHandler σ

inductive LiveEvent (σ : Type) where
  /-- A request arrives: what its settings are, and whether a process can be started. -/
  | request (settings : Except PyError σ) (starts : Bool)
  /-- The next access of the request. -/
  | access (connection : Connection)
  /-- A round of the process for these settings. -/
  | poll (settings : σ) (currentTime : ℚ) (rowsPc : List PlancacheRow)
      (rowsMets : List StatusRow)
  /-- The process for these settings ends. -/
  | procDies (settings : σ)
  | managerDies (settings : σ)

namespace LiveServer

variable {σ : Type} [DecidableEq σ]

/-- `plancacheFactory(settings)`, if no exception is raised. -/
def plancacheFactory (s : LiveServer σ) (settings : σ) (starts : Bool) : Option (LiveServer σ) :=
  match s.gPlancaches.lookup settings with
  | some _ => some s
  | none =>
    if starts then some { s with gPlancaches := s.gPlancaches.insert settings .new } else none

/-- A change to the instance for these settings, if there is one. -/
def modify (s : LiveServer σ) (settings : σ) (f : PlancacheStats → PlancacheStats) :
    LiveServer σ :=
  match s.gPlancaches.lookup settings with
  | some p => { s with gPlancaches := s.gPlancaches.insert settings (f p) }
  | none => s

/-- What follows from `PlancacheBroken`. -/
def broken (connection : Connection) : LiveReply :=
  .stopped ((checkConnectionSettings connection).getD
    (.plain "Unable to access plancache" ServerException.ER_UNKNOWN))

/-- The next access of the request, with its answer if it is the last one. -/
def access (s : LiveServer σ) (connection : Connection) :
    Option (LiveServer σ × Option (σ × LiveReply)) :=
  match s.handler with
  | .idle => none
  | .getStats settings =>
    (s.gPlancaches.lookup settings).map fun p =>
      if p.isAlive then ({ s with handler := .getMetrics settings p.loop.stats }, none)
      else ({ s with handler := .idle }, some (settings, broken connection))
  | .getMetrics settings stats =>
    (s.gPlancaches.lookup settings).map fun p =>
      ({ s with handler := .idle },
        some (settings, if p.isAlive then .running stats p.loop.metrics else broken connection))

/-- The request is over. -/
def isIdle (s : LiveServer σ) : Bool :=
  match s.handler with
  | .idle => true
  | _ => false

variable (memsqlDb : σ → Option String)

def step (s : LiveServer σ) : LiveEvent σ → Option (LiveServer σ)
  | .request (.ok settings) starts =>
    if s.isIdle then some (match s.plancacheFactory settings starts with
      | some s => { s with handler := .getStats settings }
      | none => s)
    else none
  | .request (.error _) _ => if s.isIdle then some s else none
  | .access connection => (s.access connection).map Prod.fst
  | .poll settings currentTime rowsPc rowsMets =>
    if (s.gPlancaches.lookup settings).any PlancacheStats.isAlive then
      some (s.modify settings fun p =>
        { p with loop := p.loop.poll (memsqlDb settings) currentTime rowsPc rowsMets })
    else none
  | .procDies settings => some (s.modify settings fun p => { p with pcProc := false })
  | .managerDies settings => some (s.modify settings fun p => { p with manager := false })

/-- What a step answers, and the settings of the request if it has any. -/
def answers (s : LiveServer σ) : LiveEvent σ → List (Option σ × LiveReply)
  | .request (.error _) _ => [(none, .internalError)]
  | .request (.ok settings) starts =>
    if (s.plancacheFactory settings starts).isSome then [] else [(some settings, .internalError)]
  | .access connection =>
    (((s.access connection).bind Prod.snd).toList).map fun x => (some x.1, x.2)
  | _ => []

/-- The settings for which a step starts a process. -/
def starts (s : LiveServer σ) : LiveEvent σ → List σ
  | .request (.ok settings) true => if settings ∈ s.gPlancaches then [] else [settings]
  | _ => []

def init : LiveServer σ := { gPlancaches := ∅, handler := .idle }

end LiveServer

end WorkloadSimulator.Stress
