import InfluxCloud.Cluster.Basic
import InfluxCloud.Cluster.Lifecycle
import Mathlib.Logic.Relation

/-!
# The accept loop, the connection handlers and `Service.Close`

A step relation over the state `Open` leaves, in which `serve`, every handler, every watchdog
and `Close` step on their own, and the listener and the handlers answer anything. The
`sync.WaitGroup` counter is always `serve` plus the handlers still running, so `Close` returns
only after all of them (`close_waits_for_handlers`), and once `closing` is closed every run ends.
-/

namespace InfluxCloud.Cluster

/-- Where `Service.serve` is: at the top of its loop, in `Accept`, holding a connection `Accept`
returned, or returned. -/
inductive ServePhase where
  | check
  | accept
  | spawn
  | exited
  deriving DecidableEq, Repr

/-- An accepted connection: whether its handler still runs, whether its socket is open, and
whether its watchdog has closed it. -/
structure Conn where
  running : Bool
  socketOpen : Bool
  watchdogDone : Bool
  deriving DecidableEq, Repr

/-- Where `Service.Close` is. -/
inductive ClosePhase where
  | notCalled
  | listenerClosed
  | waiting
  | returned
  deriving DecidableEq, Repr

/-- The service: its `closing` channel, its listener, `serve`, the accepted connections, the
counter of its `sync.WaitGroup`, and `Close`. -/
structure ServiceState where
  closing : ClosingChan
  listenerOpen : Bool
  serve : ServePhase
  conns : List Conn
  wg : Nat
  close : ClosePhase
  deriving DecidableEq, Repr

/-- The service when `Open` returns: `NewService`'s channel, and `serve` counted and started.
The listener is open: the caller assigned `Listener` before `Open`, as `NewService` leaves it
nil (`serviceOpen` has what `Open` does without one). -/
def ServiceState.opened : ServiceState := ⟨newService, true, .check, [], 1, .notCalled⟩

/-- The connection `i` after its handler returned; a stream-oriented handler
(`processCreateIteratorRequest`) closes the socket itself first. -/
def Conn.exit (c : Conn) (closesConn : Bool) : Conn :=
  { c with running := false, socketOpen := c.socketOpen && !closesConn }

/-- The connection after its watchdog closed the socket. -/
def Conn.closedByWatchdog (c : Conn) : Conn := { c with socketOpen := false, watchdogDone := true }

/-- One step of `serve`, a handler, a watchdog, or `Close`. -/
inductive ServiceStep : ServiceState → ServiceState → Prop
  | checkClosed {s : ServiceState} (hp : s.serve = .check) (hc : s.closing = .closed) :
      ServiceStep s { s with serve := .exited, wg := s.wg - 1 }
  | checkOpen {s : ServiceState} (hp : s.serve = .check) (hc : s.closing ≠ .closed) :
      ServiceStep s { s with serve := .accept }
  | acceptConn {s : ServiceState} (hp : s.serve = .accept) (hl : s.listenerOpen = true) :
      ServiceStep s { s with serve := .spawn }
  | acceptClosed {s : ServiceState} (e : String) (hp : s.serve = .accept)
      (he : containsStr e "connection closed" = true) :
      ServiceStep s { s with serve := .exited, wg := s.wg - 1 }
  | acceptRetry {s : ServiceState} (e : String) (hp : s.serve = .accept)
      (he : containsStr e "connection closed" = false) :
      ServiceStep s { s with serve := .check }
  | spawn {s : ServiceState} (hp : s.serve = .spawn) :
      ServiceStep s
        { s with serve := .check, conns := s.conns ++ [⟨true, true, false⟩], wg := s.wg + 1 }
  | handlerExit {s : ServiceState} (i : Nat) (hi : i < s.conns.length)
      (hr : s.conns[i].running = true) (closesConn : Bool) :
      ServiceStep s { s with conns := s.conns.set i (s.conns[i].exit closesConn), wg := s.wg - 1 }
  | watchdog {s : ServiceState} (i : Nat) (hi : i < s.conns.length)
      (hw : s.conns[i].watchdogDone = false)
      (hwake : s.conns[i].running = false ∨ s.closing = .closed) :
      ServiceStep s { s with conns := s.conns.set i s.conns[i].closedByWatchdog }
  | closeListener {s : ServiceState} (hc : s.close = .notCalled) :
      ServiceStep s { s with listenerOpen := false, close := .listenerClosed }
  | closeClosing {s : ServiceState} {c : ClosingChan} (hc : s.close = .listenerClosed)
      (hcl : serviceClose s.closing = some c) :
      ServiceStep s { s with closing := c, close := .waiting }
  | closeWait {s : ServiceState} (hc : s.close = .waiting) (hw : s.wg = 0) :
      ServiceStep s { s with close := .returned }

/-- The states the service can reach after `Open`. -/
inductive ServiceReachable : ServiceState → Prop
  | opened : ServiceReachable ServiceState.opened
  | step {s s' : ServiceState} : ServiceReachable s → ServiceStep s s' → ServiceReachable s'

/-! ### The group's counter -/

/-- The counter is `serve` and the running handlers; `closing` is closed exactly once `Close`
closed it, and the listener open exactly until `Close` began; a watchdog that ran closed its
socket; and once `Close` returned, `serve` and every handler have returned. -/
structure ServiceInv (s : ServiceState) : Prop where
  wg_eq : s.wg = (if s.serve = .exited then 0 else 1) + s.conns.countP (·.running)
  closing_eq : s.closing = if s.close = .waiting ∨ s.close = .returned then .closed else .made
  listener_iff : s.listenerOpen = true ↔ s.close = .notCalled
  watchdog_closes : ∀ c ∈ s.conns, c.watchdogDone = true → c.socketOpen = false
  returned_done : s.close = .returned → s.serve = .exited ∧ ∀ c ∈ s.conns, c.running = false

lemma serviceInv_opened : ServiceInv ServiceState.opened :=
  ⟨rfl, rfl, by simp [ServiceState.opened], by simp [ServiceState.opened],
    by simp [ServiceState.opened]⟩

lemma countP_set_add {α : Type} (p : α → Bool) {l : List α} {i : Nat} (hi : i < l.length)
    (a : α) :
    (l.set i a).countP p + (if p l[i] then 1 else 0) = l.countP p + (if p a then 1 else 0) := by
  have := List.boole_getElem_le_countP p l i hi
  rw [List.countP_set p l i a hi]
  omega

lemma wg_eq_zero_iff {s : ServiceState}
    (h : s.wg = (if s.serve = .exited then 0 else 1) + s.conns.countP (·.running)) :
    s.wg = 0 ↔ s.serve = .exited ∧ ∀ c ∈ s.conns, c.running = false := by
  rw [h]
  by_cases hs : s.serve = .exited <;> simp [hs, List.countP_eq_zero]

lemma ServiceInv.step {s s' : ServiceState} (hi : ServiceInv s) (h : ServiceStep s s') :
    ServiceInv s' := by
  obtain ⟨hwg, hcl, hl, hwd, hret⟩ := hi
  cases h with
  | checkClosed hp | acceptClosed _ hp =>
    refine ⟨?_, hcl, hl, hwd, fun h => ⟨rfl, (hret h).2⟩⟩
    simp only [hp, reduceCtorEq, if_false, if_true] at hwg ⊢
    omega
  | checkOpen hp | acceptConn hp | acceptRetry _ hp =>
    exact ⟨by simpa [hp] using hwg, hcl, hl, hwd, fun h => by simp [hret h] at hp⟩
  | spawn hp =>
    refine ⟨?_, hcl, hl, fun c hc => ?_, fun h => by simp [hret h] at hp⟩
    · simp only [hp, reduceCtorEq, if_false] at hwg
      simp [List.countP_append]
      omega
    · rcases List.mem_append.mp hc with hc | hc
      · exact hwd c hc
      · rw [List.mem_singleton.mp hc]; decide
  | handlerExit i hlt hr closesConn =>
    have := countP_set_add (·.running) hlt (s.conns[i].exit closesConn)
    simp only [hr, if_true, Conn.exit, Bool.false_eq_true, if_false] at this
    refine ⟨by simp only [Conn.exit]; omega, hcl, hl, fun c hc hd => ?_, fun h => ?_⟩
    · rcases List.mem_or_eq_of_mem_set hc with hc | rfl
      · exact hwd c hc hd
      · simp [Conn.exit, hwd _ (List.getElem_mem hlt) hd]
    · exact absurd hr (by simp [(hret h).2 _ (List.getElem_mem hlt)])
  | watchdog i hlt hw hwake =>
    have := countP_set_add (·.running) hlt s.conns[i].closedByWatchdog
    refine ⟨by simp only [Conn.closedByWatchdog] at this ⊢; omega, hcl, hl, fun c hc hd => ?_,
      fun h => ⟨(hret h).1, fun c hc => ?_⟩⟩
    · rcases List.mem_or_eq_of_mem_set hc with hc | rfl
      · exact hwd c hc hd
      · rfl
    · rcases List.mem_or_eq_of_mem_set hc with hc | rfl
      · exact (hret h).2 c hc
      · exact (hret h).2 s.conns[i] (List.getElem_mem hlt)
  | closeListener hc => exact ⟨hwg, by simpa [hc] using hcl, by simp, hwd, by simp⟩
  | closeClosing hc hcl' =>
    rw [hcl] at hcl'
    simp only [hc, reduceCtorEq, or_self, if_false, serviceClose, Option.some.injEq] at hcl'
    exact ⟨hwg, by simp [hcl'], by simp [hl, hc], hwd, by simp⟩
  | closeWait hc hw =>
    exact ⟨hwg, by simpa [hc] using hcl, by simp [hl, hc], hwd, fun _ => (wg_eq_zero_iff hwg).mp hw⟩

lemma ServiceReachable.inv {s : ServiceState} (hs : ServiceReachable s) : ServiceInv s := by
  induction hs with
  | opened => exact serviceInv_opened
  | step _ h ih => exact ih.step h

/-! ### After `Close` began -/

lemma ServiceStep.conns_length_le {s s' : ServiceState} (h : ServiceStep s s')
    (hl : s.listenerOpen = false) :
    s'.listenerOpen = false ∧
      s'.conns.length + (if s'.serve = .spawn then 1 else 0) ≤
        s.conns.length + (if s.serve = .spawn then 1 else 0) := by
  cases h with
  | acceptConn _ hl' => simp [hl] at hl'
  | spawn hp | checkClosed hp | checkOpen hp | acceptClosed _ hp | acceptRetry _ hp =>
    simp [hp, hl]
  | handlerExit | watchdog | closeListener | closeClosing | closeWait => simp [hl]

lemma conns_length_le_of_run {s s' : ServiceState} (h : Relation.ReflTransGen ServiceStep s s')
    (hl : s.listenerOpen = false) :
    s'.listenerOpen = false ∧
      s'.conns.length + (if s'.serve = .spawn then 1 else 0) ≤
        s.conns.length + (if s.serve = .spawn then 1 else 0) := by
  induction h with
  | refl => exact ⟨hl, le_rfl⟩
  | tail _ hst ih =>
    obtain ⟨hl', hle⟩ := hst.conns_length_le ih.1
    exact ⟨hl', hle.trans ih.2⟩

/-- The group counts `serve` and the running handlers, so `Done` and `Add` never meet a zero
counter. `Close` returns only once `serve` and every handler returned; once it has begun, the
listener is closed and at most one more handler starts, for the connection `serve` already
holds. -/
theorem close_waits_for_handlers {s : ServiceState} (hs : ServiceReachable s) :
    s.wg = (if s.serve = .exited then 0 else 1) + s.conns.countP (·.running) ∧
    (s.close = .returned → s.serve = .exited ∧ ∀ c ∈ s.conns, c.running = false) ∧
    (s.close ≠ .notCalled → ∀ s', Relation.ReflTransGen ServiceStep s s' →
      s'.conns.length ≤ s.conns.length + if s.serve = .spawn then 1 else 0) := by
  have hi := hs.inv
  refine ⟨hi.wg_eq, hi.returned_done, fun hc s' h => ?_⟩
  have hl : s.listenerOpen = false := Bool.eq_false_iff.mpr fun h => hc (hi.listener_iff.mp h)
  exact (Nat.le_add_right _ _).trans (conns_length_le_of_run h hl).2

/-- A handler returns without closing its socket, and `Close` returns before the watchdog ran:
the group does not count watchdogs, so the socket is still open. -/
theorem close_returns_before_watchdog :
    ∃ s, ServiceReachable s ∧ s.close = .returned ∧ s.serve = .exited ∧
      (∀ c ∈ s.conns, c.running = false) ∧ ∃ c ∈ s.conns, c.socketOpen = true := by
  have hs : ServiceReachable _ :=
    .step (.step (.step (.step (.step (.step (.step (.step .opened
      (.checkOpen rfl (by decide))) (.acceptConn (by rfl) (by rfl))) (.spawn (by rfl)))
      (.handlerExit 0 (by decide) (by rfl) false)) (.closeListener (by rfl)))
      (@ServiceStep.closeClosing _ .closed (by rfl) (by rfl))) (.checkClosed (by rfl) (by rfl)))
      (.closeWait (by rfl) (by rfl))
  obtain ⟨-, hret, -⟩ := close_waits_for_handlers hs
  exact ⟨_, hs, rfl, (hret rfl).1, (hret rfl).2, _, List.mem_singleton_self _, rfl⟩

/-! ### Every run ends once `closing` is closed -/

/-- How far `serve` is from returning once `closing` is closed: a connection it holds becomes a
running handler and a waiting watchdog. -/
def ServePhase.rank : ServePhase → Nat
  | .check => 1
  | .accept => 2
  | .spawn => 4
  | .exited => 0

/-- How far `Close` is from returning. -/
def ClosePhase.rank : ClosePhase → Nat
  | .notCalled => 3
  | .listenerClosed => 2
  | .waiting => 1
  | .returned => 0

/-- What is left to do: `serve`, `Close`, the running handlers and the watchdogs yet to run. -/
def ServiceState.pending (s : ServiceState) : Nat :=
  s.serve.rank + s.close.rank + s.conns.countP (·.running) + s.conns.countP (!·.watchdogDone)

lemma ServiceStep.closing_closed {s s' : ServiceState} (h : ServiceStep s s')
    (hc : s.closing = .closed) : s'.closing = .closed := by
  cases h with
  | closeClosing _ hcl => rw [hc] at hcl; cases hcl
  | _ => exact hc

lemma ServiceStep.pending_lt {s s' : ServiceState} (hi : ServiceInv s) (hc : s.closing = .closed)
    (h : ServiceStep s s') : s'.pending < s.pending := by
  cases h with
  | checkClosed hp | acceptClosed _ hp | acceptRetry _ hp =>
    simp [ServiceState.pending, hp, ServePhase.rank]
  | checkOpen _ hc' => exact absurd hc hc'
  | acceptConn _ hl =>
    have := hi.closing_eq
    simp [hi.listener_iff.mp hl, hc] at this
  | spawn hp =>
    simp [ServiceState.pending, hp, ServePhase.rank, List.countP_append]
    omega
  | handlerExit i hlt hr b =>
    have h1 := countP_set_add (·.running) hlt (s.conns[i].exit b)
    have h2 := countP_set_add (!·.watchdogDone) hlt (s.conns[i].exit b)
    simp only [Conn.exit, hr, if_true, Bool.false_eq_true, if_false] at h1 h2
    simp only [ServiceState.pending, Conn.exit]
    omega
  | watchdog i hlt hw _ =>
    have h1 := countP_set_add (·.running) hlt s.conns[i].closedByWatchdog
    have h2 := countP_set_add (!·.watchdogDone) hlt s.conns[i].closedByWatchdog
    simp [Conn.closedByWatchdog, hw] at h1 h2
    simp only [ServiceState.pending, Conn.closedByWatchdog]
    omega
  | closeListener hc' | closeClosing hc' | closeWait hc' =>
    simp [ServiceState.pending, hc', ClosePhase.rank]

lemma ServiceReachable.acc {s : ServiceState} (hs : ServiceReachable s)
    (hc : s.closing = .closed) : Acc (fun b a => ServiceStep a b) s := by
  generalize h : s.pending = n
  induction n using Nat.strong_induction_on generalizing s with
  | _ n ih =>
    exact .intro s fun b hst =>
      ih _ (h ▸ hst.pending_lt hs.inv hc) (hs.step hst) (hst.closing_closed hc) rfl

lemma ServiceReachable.final_iff {s : ServiceState} (hs : ServiceReachable s)
    (hc : s.closing = .closed) :
    (∀ s', ¬ServiceStep s s') ↔ s.close = .returned ∧ s.serve = .exited ∧
      ∀ c ∈ s.conns, c.running = false ∧ c.watchdogDone = true ∧ c.socketOpen = false := by
  have hi := hs.inv
  constructor
  · intro hf
    have hserve : s.serve = .exited := by
      cases hp : s.serve with
      | check => exact absurd (.checkClosed hp hc) (hf _)
      | accept => exact absurd (.acceptClosed "connection closed" hp (by decide)) (hf _)
      | spawn => exact absurd (.spawn hp) (hf _)
      | exited => rfl
    have hconn : ∀ c ∈ s.conns, c.running = false ∧ c.watchdogDone = true := by
      intro c hc'
      obtain ⟨i, hlt, rfl⟩ := List.mem_iff_getElem.mp hc'
      refine ⟨?_, ?_⟩
      · by_contra hr
        exact hf _ (.handlerExit i hlt (by simpa using hr) false)
      · by_contra hw
        exact hf _ (.watchdog i hlt (by simpa using hw) (.inr hc))
    have hclose : s.close = .waiting ∨ s.close = .returned := by
      by_contra h'
      have := hi.closing_eq
      simp [h', hc] at this
    refine ⟨hclose.resolve_left fun hw => hf _ (.closeWait hw ((wg_eq_zero_iff hi.wg_eq).mpr
      ⟨hserve, fun c hc' => (hconn c hc').1⟩)), hserve, fun c hc' => ⟨(hconn c hc').1,
      (hconn c hc').2, hi.watchdog_closes c hc' (hconn c hc').2⟩⟩
  · rintro ⟨hclose, hserve, hconn⟩ s' h
    cases h with
    | checkClosed hp | checkOpen hp | acceptConn hp | acceptClosed _ hp | acceptRetry _ hp
    | spawn hp => simp [hserve] at hp
    | handlerExit i hlt hr => simp [(hconn _ (List.getElem_mem hlt)).1] at hr
    | watchdog i hlt hw => simp [(hconn _ (List.getElem_mem hlt)).2.1] at hw
    | closeListener hc' | closeClosing hc' | closeWait hc' => simp [hclose] at hc'

/-- Once `Close` closed `closing`, every run ends, and it ends only where `Close` returned,
`serve` and every handler returned, and every connection's watchdog closed its socket. -/
theorem serve_ends_after_close {s : ServiceState} (hs : ServiceReachable s)
    (hc : s.closing = .closed) :
    Acc (fun b a => ServiceStep a b) s ∧
    ((∀ s', ¬ServiceStep s s') ↔ s.close = .returned ∧ s.serve = .exited ∧
      ∀ c ∈ s.conns, c.running = false ∧ c.watchdogDone = true ∧ c.socketOpen = false) :=
  ⟨hs.acc hc, hs.final_iff hc⟩

/-- `Close` on an idle service: once it closed the listener and `closing`, every run ends, and
the one where `serve` returns and `Wait` follows stops there. -/
theorem idle_close_run_ends :
    ∃ s, ServiceReachable s ∧ s.closing = .closed ∧ Acc (fun b a => ServiceStep a b) s ∧
      ∃ s', Relation.ReflTransGen ServiceStep s s' ∧ ∀ s'', ¬ServiceStep s' s'' := by
  have hs : ServiceReachable _ :=
    .step (.step .opened (.closeListener rfl)) (@ServiceStep.closeClosing _ .closed rfl rfl)
  refine ⟨_, hs, rfl, (serve_ends_after_close hs rfl).1, _,
    .tail (.single (.checkClosed (by rfl) (by rfl))) (.closeWait (by rfl) (by rfl)), ?_⟩
  exact (serve_ends_after_close ((hs.step (.checkClosed rfl rfl)).step (.closeWait rfl rfl))
    rfl).2.mpr ⟨rfl, rfl, fun _ h => absurd h (List.not_mem_nil _)⟩

end InfluxCloud.Cluster
