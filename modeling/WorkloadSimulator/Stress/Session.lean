import Mathlib

/-!
# The session of the stress tool

`render_index`, `ping` and `unload` in `stress/server.py`, and `pingServer` and `byeServer` in
`stress/static/js/common.js`. The server keeps the time of the last ping and nothing else; it
handles one request at a time. A page that was granted has its requests and their answers
under way for as long as the network takes, also after the browser has left it.

The live page, to which a browser is redirected, neither pings nor says goodbye.
-/

namespace WorkloadSimulator.Stress

/-! ## Time -/

/-- `PING_TIMEOUT`, in seconds. -/
def pingTimeout : Int := 10

/-- `VERY_LONG_AGO`, 2 March 1990. Times are in microseconds since 1970. -/
def veryLongAgo : Int := 636336000 * 1000000

/-- `timedelta.seconds`: the seconds of a difference that are left when its days are taken
    away. -/
def seconds (delta : Int) : Int := delta / 1000000 % 86400

/-! ## Pages -/

/-- The texts that `ping` answers. -/
inductive Pong where
  | ok
  | timeout
  deriving DecidableEq

/-- An index page that was granted. -/
structure Page where
  /-- The browser that asked for it. -/
  client : Nat
  pingingStopped : Bool
  /-- The browser has left the page. -/
  closed : Bool
  /-- Its requests to `/ping` that have not reached the server. -/
  pings : Nat
  /-- The answers that have not reached the page. -/
  pongs : List Pong
  /-- Its requests to `/unload` that have not reached the server. -/
  unloads : Nat

/-- The steps of a page and of its network. -/
inductive PageStep where
  /-- `pingServer`: every second and at every click. -/
  | pingServer
  /-- `byeServer`: before the browser leaves the page. -/
  | byeServer
  /-- The browser is gone without it. -/
  | leave
  /-- The `n`-th of the answers arrives. -/
  | pong (n : Nat)
  /-- A request fails for the page, whatever becomes of it. -/
  | pingError
  | pingLost
  | unloadLost

namespace Page

/-- A page as it is delivered. -/
def granted (client : Nat) : Page :=
  { client, pingingStopped := false, closed := false, pings := 0, pongs := [], unloads := 0 }

def pingServer (p : Page) : Page :=
  if !p.pingingStopped then { p with pings := p.pings + 1 } else p

def onPingFailure (p : Page) : Page := { p with pingingStopped := true }

/-- `onPingResponse`, with `none` for the `jqXHR` of an error. -/
def onPingResponse (p : Page) (data : Option Pong) : Page :=
  if data ≠ some .ok then p.onPingFailure else p

def byeServer (p : Page) : Page :=
  let p := if !p.pingingStopped then { p with unloads := p.unloads + 1 } else p
  { p with pingingStopped := true }

def step (p : Page) : PageStep → Option Page
  | .pingServer => if p.closed then none else some p.pingServer
  | .byeServer => if p.closed then none else some { p.byeServer with closed := true }
  | .leave => some { p with closed := true }
  | .pong n =>
    match p.pongs[n]? with
    | some data =>
      let p := { p with pongs := p.pongs.eraseIdx n }
      some (if p.closed then p else p.onPingResponse (some data))
    | none => none
  | .pingError =>
    if !p.closed ∧ (0 < p.pings ∨ p.pongs ≠ []) then some (p.onPingResponse none) else none
  | .pingLost => if 0 < p.pings then some { p with pings := p.pings - 1 } else none
  | .unloadLost => if 0 < p.unloads then some { p with unloads := p.unloads - 1 } else none

/-- A ping is sent for the id that the page has. -/
@[simp] theorem pingServer_client (p : Page) : p.pingServer.client = p.client := by
  unfold pingServer
  split <;> rfl

/-- Its answer does not change the id. -/
@[simp] theorem onPingResponse_client (p : Page) (data : Option Pong) :
    (p.onPingResponse data).client = p.client := by
  unfold onPingResponse
  split <;> rfl

/-- Neither does the end of the session. -/
@[simp] theorem byeServer_client (p : Page) : p.byeServer.client = p.client := by
  unfold byeServer
  dsimp only
  split <;> rfl

/-- A page that has stopped sends nothing more. -/
theorem pingServer_of_stopped {p : Page} (h : p.pingingStopped = true) : p.pingServer = p := by
  simp [pingServer, h]

/-- A page that has said goodbye says no more. -/
theorem byeServer_of_stopped {p : Page} (h : p.pingingStopped = true) : p.byeServer = p := by
  cases p
  simp_all [byeServer]

end Page

/-! ## The server -/

/-- The server, the time of its clock, and the pages that it has granted, in this order. -/
structure Session where
  clock : Int
  gLastPing : Int
  pages : List Page

namespace Session

/-- `(datetime.now() - g_last_ping).seconds <= PING_TIMEOUT` -/
def recent (s : Session) (now : Int) : Bool := seconds (now - s.gLastPing) ≤ pingTimeout

/-- `render_index`: a redirection, or a page. -/
def renderIndex (s : Session) (client : Nat) (now : Int) : Session :=
  if s.recent now then s
  else { s with gLastPing := now, pages := s.pages ++ [.granted client] }

def ping (s : Session) (now : Int) : Session × Pong :=
  if s.recent now then ({ s with gLastPing := now }, .ok) else (s, .timeout)

def unload (s : Session) : Session := { s with gLastPing := veryLongAgo }

def setPage (s : Session) (i : Nat) (p : Page) : Session := { s with pages := s.pages.set i p }

/-- What can happen next. The server's events have the time at which it handles them. -/
inductive Event where
  /-- A browser asks for the index page. -/
  | index (client : Nat) (now : Int)
  /-- A ping of the page `i` arrives. -/
  | ping (i : Nat) (now : Int)
  /-- A goodbye of the page `i` arrives. -/
  | unload (i : Nat) (now : Int)
  | page (i : Nat) (a : PageStep)

def step (s : Session) : Event → Option Session
  | .index client now =>
    if s.clock ≤ now then some ({ s with clock := now }.renderIndex client now) else none
  | .ping i now =>
    match s.pages[i]? with
    | some p =>
      if s.clock ≤ now ∧ 0 < p.pings then
        let (t, pong) := { s with clock := now }.ping now
        some (t.setPage i { p with pings := p.pings - 1, pongs := p.pongs ++ [pong] })
      else none
    | none => none
  | .unload i now =>
    match s.pages[i]? with
    | some p =>
      if s.clock ≤ now ∧ 0 < p.unloads then
        some ({ s with clock := now }.unload.setPage i { p with unloads := p.unloads - 1 })
      else none
    | none => none
  | .page i a =>
    match s.pages[i]? with
    | some p => (p.step a).map (s.setPage i)
    | none => none

/-- A request of anybody, with the time at which the server handles it. -/
inductive Request where
  | index (client : Nat) (now : Int)
  | ping (now : Int)
  | unload (now : Int)

namespace Request

def now : Request → Int
  | index _ now => now
  | ping now => now
  | unload now => now

end Request

def handle (s : Session) : Request → Session
  | .index client now => s.renderIndex client now
  | .ping now => (s.ping now).1
  | .unload _ => s.unload

/-- The server alone, where requests come in whatever order. -/
def request (s : Session) (r : Request) : Option Session :=
  if s.clock ≤ r.now then some ({ s with clock := r.now }.handle r) else none

/-- The server when it starts. -/
def init (clock : Int) : Session := { clock, gLastPing := veryLongAgo, pages := [] }

end Session

end WorkloadSimulator.Stress
