import InfluxCloud.Cluster.Basic
import Mathlib.Data.List.Nodup
import Mathlib.Data.List.Range
import Mathlib.Algebra.Order.BigOperators.Group.List
import Mathlib.Algebra.Order.Ring.Nat

/-!
# `writeToShard` under every interleaving

Two goroutines per owner entry, a local and a remote attempt, send at most one result into a
channel of capacity `len(shard.Owners)`, and the collector takes results until the level is
met, the timer or closing fires, or every owner answered. A step relation with ghost logs of the
calls and sends; each goroutine's log is a function of its phase (`WorkerOk`) and the
collector's state of the results it took (`CollectorOk`), and every run ends.
-/

namespace InfluxCloud.Cluster

/-- Modelled from the spec: `models.ConsistencyLevel`, whose declaration is not under src/. -/
inductive ConsistencyLevel where
  | any
  | one
  | quorum
  | all
  deriving DecidableEq, Repr

/-- `required` of `writeToShard`, for `n` owners. -/
def ConsistencyLevel.required : ConsistencyLevel → Nat → Nat
  | .any, _ | .one, _ => 1
  | .quorum, n => n / 2 + 1
  | .all, n => n

/-- `isRetryable`: a nil error, or one whose text does not name a field type conflict. -/
def isRetryable : Option Error → Bool
  | none => true
  | some e => !containsStr e.error "field type conflict"

/-- The inputs of one `writeToShard` call that its body reads; `nodeID` is `w.Node.ID`. -/
structure ShardWrite where
  shard : ShardInfo
  nodeID : UInt64
  consistency : ConsistencyLevel
  points : List Point

/-- The two goroutines `writeToShard` starts for an owner entry. -/
inductive Attempt where
  | localWrite
  | remoteWrite
  deriving DecidableEq, Repr

/-- A goroutine of `writeToShard`: its owner entry and which attempt it makes. -/
@[ext] structure Worker where
  entry : Nat
  attempt : Attempt
  deriving DecidableEq, Repr

/-- A collaborator call, with the collaborator's answer. The owner entry is ghost: it names
the goroutine that made the call. -/
inductive Call where
  | writeToShard (entry : Nat) (shardID : UInt64) (points : List Point) (result : Option Error)
  | writeShard (entry : Nat) (shardID ownerID : UInt64) (points : List Point)
      (result : Option Error)
  | hintedHandoff (entry : Nat) (shardID ownerID : UInt64) (points : List Point)
      (result : Option Error)
  deriving DecidableEq, Repr

/-- The goroutine that makes a call. -/
def Call.worker : Call → Worker
  | .writeToShard i .. => ⟨i, .localWrite⟩
  | .writeShard i .. | .hintedHandoff i .. => ⟨i, .remoteWrite⟩

/-- `AsyncWriteResult`. -/
structure AsyncWriteResult where
  owner : ShardOwner
  err : Option Error
  deriving DecidableEq, Repr

/-- A send on the result channel; the sender is ghost. -/
structure Delivery where
  worker : Worker
  result : AsyncWriteResult
  deriving DecidableEq, Repr

/-- Where a goroutine is: before its work, waiting to hand off after a retryable remote
failure, about to send, or returned. -/
inductive Phase where
  | start
  | handoff (err : Error)
  | sending (r : AsyncWriteResult)
  | done
  deriving DecidableEq, Repr

/-- The collecting loop: the successes so far and the first error, or the value returned. -/
inductive Collector where
  | waiting (wrote : Nat) (writeError : Option Error)
  | returned (r : Option Error)
  deriving DecidableEq, Repr

/-- The state of one `writeToShard` call: the goroutines, the channel as the list of every
send and the number the collector took, the collector, the timer and the closing signal,
and the ghost log of collaborator calls. -/
structure WriteToShardState where
  phase : Worker → Phase
  sent : List Delivery
  taken : Nat
  collector : Collector
  timerFired : Bool
  closing : Bool
  calls : List Call

/-- The state when the collecting loop starts: every goroutine started, nothing sent. -/
def WriteToShardState.init : WriteToShardState :=
  ⟨fun _ => .start, [], 0, .waiting 0 none, false, false, []⟩

variable (cfg : ShardWrite)

/-- The number of owner entries, which is the channel's capacity and the loop's count. -/
def ShardWrite.n : Nat := cfg.shard.owners.length

/-- `required` for this call. -/
def ShardWrite.required : Nat := cfg.consistency.required cfg.n

/-- Goroutine `a` of owner `o` returns without doing anything: the local attempt of a
remote owner, the remote attempt of the local one. -/
def Skips (o : ShardOwner) : Attempt → Prop
  | .localWrite => cfg.nodeID ≠ o.nodeID
  | .remoteWrite => cfg.nodeID = o.nodeID

/-- The remote goroutine's phase after `ShardWriter.WriteShard` answered `x`: a retryable
failure goes to hinted handoff. -/
def afterWriteShard (o : ShardOwner) : Option Error → Phase
  | some e => if isRetryable (some e) then .handoff e else .sending ⟨o, some e⟩
  | none => .sending ⟨o, none⟩

/-- What the remote goroutine sends after a retryable failure `e` and the handoff's answer:
the handoff's error, or `nil` at `ANY`, or `e`. -/
def handoffResult (c : ConsistencyLevel) (e : Error) : Option Error → Option Error
  | some h => some h
  | none => if c = .any then none else some e

/-- One step of goroutine `w` of owner `o`: its new phase, the call it made and the result
it sent, if any. -/
inductive Advance (w : Worker) (o : ShardOwner) :
    Phase → Phase → Option Call → Option AsyncWriteResult → Prop
  | skip (h : Skips cfg o w.attempt) : Advance w o .start .done none none
  | writeLocal (x : Option Error) (hw : w.attempt = .localWrite) (h : cfg.nodeID = o.nodeID) :
      Advance w o .start (.sending ⟨o, x⟩)
        (some (.writeToShard w.entry cfg.shard.id cfg.points x)) none
  | writeRemote (x : Option Error) (hw : w.attempt = .remoteWrite) (h : cfg.nodeID ≠ o.nodeID) :
      Advance w o .start (afterWriteShard o x)
        (some (.writeShard w.entry cfg.shard.id o.nodeID cfg.points x)) none
  | handoff (e : Error) (hh : Option Error) (hw : w.attempt = .remoteWrite) :
      Advance w o (.handoff e) (.sending ⟨o, handoffResult cfg.consistency e hh⟩)
        (some (.hintedHandoff w.entry cfg.shard.id o.nodeID cfg.points hh)) none
  | send (r : AsyncWriteResult) : Advance w o (.sending r) .done none (some r)

/-- The state after goroutine `w` moved to `p`, making call `c` and sending `r`. -/
def WriteToShardState.move (s : WriteToShardState) (w : Worker) (p : Phase) (c : Option Call)
    (r : Option AsyncWriteResult) : WriteToShardState :=
  { s with phase := Function.update s.phase w p, calls := s.calls ++ c.toList,
           sent := s.sent ++ (r.map (Delivery.mk w)).toList }

@[simp] lemma WriteToShardState.move_collector (s : WriteToShardState) (w : Worker) (p : Phase)
    (c : Option Call)
    (r : Option AsyncWriteResult) : (s.move w p c r).collector = s.collector := rfl

@[simp] lemma WriteToShardState.move_taken (s : WriteToShardState) (w : Worker) (p : Phase)
    (c : Option Call)
    (r : Option AsyncWriteResult) : (s.move w p c r).taken = s.taken := rfl

@[simp] lemma WriteToShardState.move_timerFired (s : WriteToShardState) (w : Worker) (p : Phase)
    (c : Option Call)
    (r : Option AsyncWriteResult) : (s.move w p c r).timerFired = s.timerFired := rfl

@[simp] lemma WriteToShardState.move_closing (s : WriteToShardState) (w : Worker) (p : Phase)
    (c : Option Call)
    (r : Option AsyncWriteResult) : (s.move w p c r).closing = s.closing := rfl

/-- The collector after taking result `r`: the first error is kept, a success counts and
may meet the level. -/
def Collector.receive (required wrote : Nat) (writeError : Option Error)
    (r : AsyncWriteResult) : Collector :=
  match r.err with
  | some e => .waiting wrote (writeError.or (some e))
  | none => if required ≤ wrote + 1 then .returned none else .waiting (wrote + 1) writeError

/-- What `writeToShard` returns when every owner answered and the level was not met. -/
def exhaustedResult (wrote : Nat) (writeError : Option Error) : Error :=
  if 0 < wrote then .partialWrite
  else
    match writeError with
    | some e => .msg ("write failed: " ++ e.error)
    | none => .writeFailed

/-- One step of the whole call: a goroutine, the collecting loop, or the environment. -/
inductive WriteToShardStep : WriteToShardState → WriteToShardState → Prop
  | worker {s : WriteToShardState} {w : Worker} {o : ShardOwner} {p : Phase} {c : Option Call}
      {r : Option AsyncWriteResult} (ho : cfg.shard.owners[w.entry]? = some o)
      (ha : Advance cfg w o (s.phase w) p c r) (hroom : r.isSome → s.sent.length - s.taken < cfg.n) :
      WriteToShardStep s (s.move w p c r)
  | takeClosing {s : WriteToShardState} {wrote : Nat} {we : Option Error}
      (hc : s.collector = .waiting wrote we) (hk : s.taken < cfg.n) (hcl : s.closing = true) :
      WriteToShardStep s { s with collector := .returned (some .writeFailed) }
  | takeTimeout {s : WriteToShardState} {wrote : Nat} {we : Option Error}
      (hc : s.collector = .waiting wrote we) (hk : s.taken < cfg.n) (ht : s.timerFired = true) :
      WriteToShardStep s { s with collector := .returned (some .timeout) }
  | receive {s : WriteToShardState} {wrote : Nat} {we : Option Error} {d : Delivery}
      (hc : s.collector = .waiting wrote we) (hk : s.taken < cfg.n) (hd : s.sent[s.taken]? = some d) :
      WriteToShardStep s
        { s with taken := s.taken + 1, collector := Collector.receive cfg.required wrote we d.result }
  | finish {s : WriteToShardState} {wrote : Nat} {we : Option Error}
      (hc : s.collector = .waiting wrote we) (hk : s.taken = cfg.n) :
      WriteToShardStep s { s with collector := .returned (some (exhaustedResult wrote we)) }
  | fireTimer {s : WriteToShardState} : WriteToShardStep s { s with timerFired := true }
  | close {s : WriteToShardState} : WriteToShardStep s { s with closing := true }

/-- The states one `writeToShard` call can reach. -/
inductive WriteToShardReachable : WriteToShardState → Prop
  | init : WriteToShardReachable WriteToShardState.init
  | step {s s' : WriteToShardState} :
      WriteToShardReachable s → WriteToShardStep cfg s s' → WriteToShardReachable s'

/-! ### Each goroutine's log follows its phase -/

/-- The calls goroutine `w` made. -/
def callsBy (w : Worker) (calls : List Call) : List Call := calls.filter (·.worker = w)

/-- The results goroutine `w` sent. -/
def sendsBy (w : Worker) (sent : List Delivery) : List Delivery := sent.filter (·.worker = w)

/-- The remote goroutine of entry `i`, owner `o`, made the calls `cs` and has `err` to
send: one `WriteShard` that did not fail retryably, or a retryable failure and one handoff. -/
def RemoteAttempted (i : Nat) (o : ShardOwner) (cs : List Call) (err : Option Error) : Prop :=
  (∃ x, (∀ e, x = some e → isRetryable (some e) = false) ∧
      cs = [.writeShard i cfg.shard.id o.nodeID cfg.points x] ∧ err = x) ∨
  (∃ e hh, isRetryable (some e) = true ∧
      cs = [.writeShard i cfg.shard.id o.nodeID cfg.points (some e),
        .hintedHandoff i cfg.shard.id o.nodeID cfg.points hh] ∧
      err = handoffResult cfg.consistency e hh)

/-- Goroutine `w` of owner `o` did its work, making the calls `cs`, and has `r` to send. -/
def Attempted (w : Worker) (o : ShardOwner) (cs : List Call) (r : AsyncWriteResult) : Prop :=
  r.owner = o ∧ ¬ Skips cfg o w.attempt ∧
    match w.attempt with
    | .localWrite => cs = [.writeToShard w.entry cfg.shard.id cfg.points r.err]
    | .remoteWrite => RemoteAttempted cfg w.entry o cs r.err

/-- The calls `cs` and sends `ds` of goroutine `w` of owner `o`, given its phase. -/
def WorkerOk (w : Worker) (o : ShardOwner) : Phase → List Call → List Delivery → Prop
  | .start, cs, ds => cs = [] ∧ ds = []
  | .handoff e, cs, ds => w.attempt = .remoteWrite ∧ cfg.nodeID ≠ o.nodeID ∧
      isRetryable (some e) = true ∧
      cs = [.writeShard w.entry cfg.shard.id o.nodeID cfg.points (some e)] ∧ ds = []
  | .sending r, cs, ds => Attempted cfg w o cs r ∧ ds = []
  | .done, cs, ds => (Skips cfg o w.attempt ∧ cs = [] ∧ ds = []) ∨
      ∃ r, Attempted cfg w o cs r ∧ ds = [⟨w, r⟩]

/-- Every goroutine's calls and sends follow its phase; entries past the owner list never
run. -/
structure WorkersInv (s : WriteToShardState) : Prop where
  owned : ∀ w o, cfg.shard.owners[w.entry]? = some o →
    WorkerOk cfg w o (s.phase w) (callsBy w s.calls) (sendsBy w s.sent)
  unowned : ∀ w, cfg.shard.owners[w.entry]? = none →
    s.phase w = .start ∧ callsBy w s.calls = [] ∧ sendsBy w s.sent = []

@[simp] lemma callsBy_append (w : Worker) (cs cs' : List Call) :
    callsBy w (cs ++ cs') = callsBy w cs ++ callsBy w cs' := List.filter_append _ _

@[simp] lemma sendsBy_append (w : Worker) (ds ds' : List Delivery) :
    sendsBy w (ds ++ ds') = sendsBy w ds ++ sendsBy w ds' := List.filter_append _ _

lemma Advance.call_worker {w : Worker} {o : ShardOwner} {p p' : Phase} {c : Option Call}
    {r : Option AsyncWriteResult} (ha : Advance cfg w o p p' c r) :
    ∀ c' ∈ c.toList, c'.worker = w := by
  cases ha with
  | skip | send => simp
  | writeLocal _ hw | writeRemote _ hw | handoff _ _ hw => cases w; simp_all [Call.worker]

lemma Advance.workerOk {w : Worker} {o : ShardOwner} {p p' : Phase} {c : Option Call}
    {r : Option AsyncWriteResult} {cs : List Call} {ds : List Delivery}
    (ha : Advance cfg w o p p' c r) (hok : WorkerOk cfg w o p cs ds) :
    WorkerOk cfg w o p' (cs ++ c.toList) (ds ++ (r.map (Delivery.mk w)).toList) := by
  cases ha with
  | skip h =>
    obtain ⟨rfl, rfl⟩ := hok
    exact .inl ⟨h, rfl, rfl⟩
  | writeLocal x hw h =>
    obtain ⟨rfl, rfl⟩ := hok
    exact ⟨⟨rfl, by simp [Skips, hw, h], by simp [hw]⟩, rfl⟩
  | writeRemote x hw h =>
    obtain ⟨rfl, rfl⟩ := hok
    cases x with
    | none => exact ⟨⟨rfl, by simpa [Skips, hw] using h, by simp [hw, RemoteAttempted]⟩, rfl⟩
    | some e =>
      by_cases hr : isRetryable (some e) = true
      · rw [afterWriteShard, if_pos hr]
        exact ⟨hw, h, hr, rfl, rfl⟩
      · rw [afterWriteShard, if_neg hr]
        refine ⟨⟨rfl, by simpa [Skips, hw] using h, ?_⟩, rfl⟩
        simp only [hw]
        exact .inl ⟨some e, fun e' he' => by cases he'; simpa using hr, rfl, rfl⟩
  | handoff e hh hw =>
    obtain ⟨-, h, hr, rfl, rfl⟩ := hok
    refine ⟨⟨rfl, by simpa [Skips, hw] using h, ?_⟩, rfl⟩
    simp only [hw]
    exact .inr ⟨e, hh, hr, rfl, rfl⟩
  | send r =>
    obtain ⟨hatt, rfl⟩ := hok
    exact .inr ⟨r, by simpa using hatt, rfl⟩

lemma Advance.sends_worker {w : Worker} (r : Option AsyncWriteResult) :
    ∀ d ∈ (r.map (Delivery.mk w)).toList, d.worker = w := by
  cases r <;> simp

lemma callsBy_move {s : WriteToShardState} {w w' : Worker} {o : ShardOwner} {p p' : Phase}
    {c : Option Call} {r : Option AsyncWriteResult} (ha : Advance cfg w o p p' c r) :
    callsBy w' (s.move w p' c r).calls = callsBy w' s.calls ++ if w' = w then c.toList else [] := by
  simp only [WriteToShardState.move, callsBy_append]
  congr 1
  split
  · subst w'; exact List.filter_eq_self.mpr fun c' hc' => by simpa using ha.call_worker cfg c' hc'
  · exact List.filter_eq_nil_iff.mpr fun c' hc' => by simpa [ha.call_worker cfg c' hc'] using Ne.symm ‹_›

lemma sendsBy_move {s : WriteToShardState} {w w' : Worker} {p' : Phase} {c : Option Call}
    {r : Option AsyncWriteResult} :
    sendsBy w' (s.move w p' c r).sent =
      sendsBy w' s.sent ++ if w' = w then (r.map (Delivery.mk w)).toList else [] := by
  simp only [WriteToShardState.move, sendsBy_append]
  congr 1
  split
  · subst w'; exact List.filter_eq_self.mpr fun d hd => by simpa using Advance.sends_worker r d hd
  · exact List.filter_eq_nil_iff.mpr fun d hd => by
      simpa [Advance.sends_worker r d hd] using Ne.symm ‹_›

lemma workersInv_init : WorkersInv cfg WriteToShardState.init :=
  ⟨fun _ _ _ => ⟨rfl, rfl⟩, fun _ _ => ⟨rfl, rfl, rfl⟩⟩

lemma WorkersInv.step {s s' : WriteToShardState} (hi : WorkersInv cfg s)
    (hs : WriteToShardStep cfg s s') :
    WorkersInv cfg s' := by
  cases hs with
  | @worker w o p c r ho ha _ =>
    refine ⟨fun w' o' ho' => ?_, fun w' hw' => ?_⟩
    · rw [callsBy_move cfg ha, sendsBy_move]
      by_cases hw : w' = w
      · subst hw
        obtain rfl : o' = o := Option.some.inj (ho'.symm.trans ho)
        simpa [WriteToShardState.move] using ha.workerOk cfg (hi.owned w' o' ho')
      · simpa [WriteToShardState.move, Function.update_noteq hw, hw] using hi.owned w' o' ho'
    · have hw : w' ≠ w := by rintro rfl; simp [ho] at hw'
      rw [callsBy_move cfg ha, sendsBy_move]
      simpa [WriteToShardState.move, Function.update_noteq hw, hw] using hi.unowned w' hw'
  | takeClosing | takeTimeout | receive | finish | fireTimer | close => exact ⟨hi.1, hi.2⟩

lemma WriteToShardReachable.workersInv {s : WriteToShardState}
    (hs : WriteToShardReachable cfg s) : WorkersInv cfg s := by
  induction hs with
  | init => exact workersInv_init cfg
  | step _ hstep ih => exact ih.step cfg hstep

/-! ### The collector follows the results it took -/

/-- The results the collector took, in order. -/
def WriteToShardState.received (s : WriteToShardState) : List AsyncWriteResult :=
    (s.sent.take s.taken).map (·.result)

/-- `wrote`, read off the results taken. -/
def successes (rs : List AsyncWriteResult) : Nat := rs.countP (·.err = none)

/-- `writeError`, read off the results taken. -/
def firstError (rs : List AsyncWriteResult) : Option Error := (rs.filterMap (·.err)).head?

@[simp] lemma successes_append (rs : List AsyncWriteResult) (r : AsyncWriteResult) :
    successes (rs ++ [r]) = successes rs + if r.err = none then 1 else 0 := by
  simp [successes, List.countP_append, List.countP_cons]

@[simp] lemma firstError_append (rs : List AsyncWriteResult) (r : AsyncWriteResult) :
    firstError (rs ++ [r]) = (firstError rs).or r.err := by
  simp only [firstError, List.filterMap_append, List.head?_append]
  cases h : r.err <;> simp [h]

/-- The collector's state, read off the results it took: still collecting below the level,
or returned with the value its exit gives. -/
def CollectorOk (s : WriteToShardState) : Prop :=
  s.taken ≤ s.sent.length ∧
    match s.collector with
    | .waiting wrote we => s.taken ≤ cfg.n ∧ wrote = successes s.received ∧
        wrote < cfg.required ∧ we = firstError s.received
    | .returned r =>
        (r = none ∧ cfg.required ≤ successes s.received) ∨
        (r = some .timeout ∧ s.timerFired = true ∧ successes s.received < cfg.required ∧
          s.taken < cfg.n) ∨
        (r = some .writeFailed ∧ s.closing = true ∧ successes s.received < cfg.required ∧
          s.taken < cfg.n) ∨
        (r = some (exhaustedResult (successes s.received) (firstError s.received)) ∧
          s.taken = cfg.n ∧ successes s.received < cfg.required)

lemma ShardWrite.required_pos (hN : 0 < cfg.n) : 0 < cfg.required := by
  unfold ShardWrite.required ConsistencyLevel.required
  split <;> omega

lemma collectorOk_init (hN : 0 < cfg.n) : CollectorOk cfg WriteToShardState.init :=
  ⟨le_rfl, Nat.zero_le _, rfl, cfg.required_pos hN, rfl⟩

lemma received_move {s : WriteToShardState} (hk : s.taken ≤ s.sent.length) (w : Worker) (p : Phase)
    (c : Option Call) (r : Option AsyncWriteResult) : (s.move w p c r).received = s.received := by
  simp [WriteToShardState.received, WriteToShardState.move, List.take_append_of_le_length hk]

lemma CollectorOk.of_signals {s s' : WriteToShardState} (hi : CollectorOk cfg s)
    (hsent : s'.sent = s.sent)
    (htaken : s'.taken = s.taken) (hcol : s'.collector = s.collector)
    (ht : s.timerFired = true → s'.timerFired = true)
    (hcl : s.closing = true → s'.closing = true) : CollectorOk cfg s' := by
  obtain ⟨hk, hm⟩ := hi
  have hr : s'.received = s.received := by simp [WriteToShardState.received, hsent, htaken]
  refine ⟨hsent ▸ htaken ▸ hk, ?_⟩
  rw [hcol, hr, htaken]
  cases hc : s.collector with
  | waiting => simpa [hc] using hm
  | returned r =>
    simp only [hc] at hm ⊢
    rcases hm with h | ⟨h1, h2, h3⟩ | ⟨h1, h2, h3⟩ | h
    exacts [.inl h, .inr (.inl ⟨h1, ht h2, h3⟩), .inr (.inr (.inl ⟨h1, hcl h2, h3⟩)),
      .inr (.inr (.inr h))]

lemma CollectorOk.step {s s' : WriteToShardState} (hi : CollectorOk cfg s)
    (hs : WriteToShardStep cfg s s') :
    CollectorOk cfg s' := by
  obtain ⟨hk, hc⟩ := hi
  cases hs with
  | worker =>
    refine ⟨by simp only [WriteToShardState.move, List.length_append]; omega, ?_⟩
    simpa only [received_move hk, WriteToShardState.move_collector, WriteToShardState.move_taken,
      WriteToShardState.move_timerFired, WriteToShardState.move_closing] using hc
  | takeClosing hcol hlt hcl =>
    simp only [hcol] at hc
    exact ⟨hk, .inr (.inr (.inl ⟨rfl, hcl, hc.2.1 ▸ hc.2.2.1, hlt⟩))⟩
  | takeTimeout hcol hlt ht =>
    simp only [hcol] at hc
    exact ⟨hk, .inr (.inl ⟨rfl, ht, hc.2.1 ▸ hc.2.2.1, hlt⟩)⟩
  | @receive wrote we d hcol hlt hd =>
    simp only [hcol] at hc
    obtain ⟨-, rfl, hlt', rfl⟩ := hc
    have hlen : s.taken < s.sent.length := (List.getElem?_eq_some_iff.mp hd).1
    have hrec : ∀ c : Collector,
        ({ s with taken := s.taken + 1, collector := c } : WriteToShardState).received =
          s.received ++ [d.result] := fun _ => by
      simp [WriteToShardState.received, List.take_succ, hd]
    refine ⟨hlen, ?_⟩
    cases he : d.result.err with
    | some e =>
      simp only [hrec, Collector.receive, he]
      exact ⟨hlt, by simp [he], hlt', by simp [he]⟩
    | none =>
      by_cases hreq : cfg.required ≤ successes s.received + 1
      · simp only [hrec, Collector.receive, he, if_pos hreq]
        exact .inl ⟨trivial, by simpa [he] using hreq⟩
      · simp only [hrec, Collector.receive, he, if_neg hreq]
        exact ⟨hlt, by simp [he], by omega, by simp [he]⟩
  | finish hcol heq =>
    simp only [hcol] at hc
    obtain ⟨-, rfl, hlt', rfl⟩ := hc
    exact ⟨hk, .inr (.inr (.inr ⟨rfl, heq, hlt'⟩))⟩
  | fireTimer => exact CollectorOk.of_signals cfg ⟨hk, hc⟩ rfl rfl rfl (fun _ => rfl) id
  | close => exact CollectorOk.of_signals cfg ⟨hk, hc⟩ rfl rfl rfl id (fun _ => rfl)

lemma WriteToShardReachable.collectorOk (hN : 0 < cfg.n) {s : WriteToShardState}
    (hs : WriteToShardReachable cfg s) :
    CollectorOk cfg s := by
  induction hs with
  | init => exact collectorOk_init cfg hN
  | step _ hstep ih => exact ih.step cfg hstep

/-! ### What the call returns -/

/-- The values `writeToShard` returns: nil, `ErrTimeout`, `ErrPartialWrite`, `ErrWriteFailed`,
or `write failed: ` followed by an owner's error. -/
inductive WriteToShardResult : Option Error → Prop
  | ok : WriteToShardResult none
  | timeout : WriteToShardResult (some .timeout)
  | partialWrite : WriteToShardResult (some .partialWrite)
  | writeFailed : WriteToShardResult (some .writeFailed)
  | failed (e : Error) : WriteToShardResult (some (.msg ("write failed: " ++ e.error)))

lemma exhaustedResult_result (wrote : Nat) (we : Option Error) :
    WriteToShardResult (some (exhaustedResult wrote we)) := by
  unfold exhaustedResult
  split_ifs
  · exact .partialWrite
  · cases we with
    | some e => exact .failed e
    | none => exact .writeFailed

lemma Collector.receive_eq_returned {required wrote : Nat} {we r : Option Error}
    {x : AsyncWriteResult} (h : Collector.receive required wrote we x = .returned r) : r = none := by
  unfold Collector.receive at h
  split at h
  · cases h
  · split_ifs at h
    exact (Collector.returned.inj h).symm

lemma WriteToShardReachable.returned_result {s : WriteToShardState}
    (hs : WriteToShardReachable cfg s) {r : Option Error}
    (hr : s.collector = .returned r) : WriteToShardResult r := by
  induction hs generalizing r with
  | init => cases hr
  | step _ h ih =>
    cases h with
    | worker => exact ih (by simpa using hr)
    | takeClosing => cases hr; exact .writeFailed
    | takeTimeout => cases hr; exact .timeout
    | receive => exact Collector.receive_eq_returned hr ▸ .ok
    | finish => cases hr; exact exhaustedResult_result _ _
    | fireTimer | close => exact ih hr

/-! ### Who sends, and what -/

/-- How far a goroutine is from returning. -/
def Phase.rank : Phase → Nat
  | .start => 3
  | .handoff _ => 2
  | .sending _ => 1
  | .done => 0

lemma Advance.rank_lt {w : Worker} {o : ShardOwner} {p p' : Phase} {c : Option Call}
    {r : Option AsyncWriteResult} (ha : Advance cfg w o p p' c r) : p'.rank < p.rank := by
  cases ha with
  | writeRemote x =>
    cases x with
    | none => simp [afterWriteShard, Phase.rank]
    | some e => simp only [afterWriteShard]; split <;> simp [Phase.rank]
  | _ => simp [Phase.rank]

/-- The channel holds at most one result per owner entry, each from an entry of the shard. -/
def SentOk (s : WriteToShardState) : Prop :=
  (s.sent.map (·.worker.entry)).Nodup ∧ ∀ d ∈ s.sent, d.worker.entry < cfg.n

section WriteToShardReachable

variable {cfg} {s : WriteToShardState}

lemma skips_or {o : ShardOwner} {a a' : Attempt} (h : a ≠ a') : Skips cfg o a ∨ Skips cfg o a' := by
  cases a <;> cases a' <;> simp_all [Skips, em, em']

lemma mem_callsBy_worker {c : Call}
    {calls : List Call} : c ∈ callsBy c.worker calls ↔ c ∈ calls := by
  simp [callsBy]

lemma WorkersInv.sent_attempted (hi : WorkersInv cfg s) {d : Delivery} (hd : d ∈ s.sent) :
    ∃ o, cfg.shard.owners[d.worker.entry]? = some o ∧ s.phase d.worker = .done ∧
      Attempted cfg d.worker o (callsBy d.worker s.calls) d.result ∧ sendsBy d.worker s.sent = [d] := by
  have hmem : d ∈ sendsBy d.worker s.sent := List.mem_filter.mpr ⟨hd, by simp⟩
  cases ho : cfg.shard.owners[d.worker.entry]? with
  | none => simp [(hi.unowned _ ho).2.2] at hmem
  | some o =>
    have hok := hi.owned _ o ho
    generalize s.phase d.worker = p at hok ⊢
    cases p with
    | start | handoff | sending => simp [WorkerOk, hok.2] at hmem
    | done =>
      rcases hok with ⟨-, -, hds⟩ | ⟨r, hatt, hds⟩
      · simp [hds] at hmem
      · have hdr : d = ⟨d.worker, r⟩ := by simpa [hds] using hmem
        exact ⟨o, rfl, rfl, by rwa [hdr], hds.trans (congrArg (fun x => [x]) hdr.symm)⟩

lemma WorkersInv.entry_unsent (hi : WorkersInv cfg s) {w : Worker} {o : ShardOwner}
    {r : AsyncWriteResult} (ho : cfg.shard.owners[w.entry]? = some o) (hp : s.phase w = .sending r) :
    ∀ d ∈ s.sent, d.worker.entry ≠ w.entry := by
  intro d hd he
  obtain ⟨o', ho', -, hatt, hds⟩ := hi.sent_attempted hd
  have hw := hi.owned w o ho
  rw [hp] at hw
  by_cases hdw : d.worker = w
  · rw [hdw, hw.2] at hds
    exact List.cons_ne_nil d [] hds.symm
  · have hoo : o' = o := by rw [he, ho] at ho'; exact (Option.some.inj ho').symm
    rw [hoo] at hatt
    rcases skips_or (o := o) (fun h => hdw (Worker.ext he h)) with h | h
    exacts [hatt.2.1 h, hw.1.2.1 h]

lemma Advance.sending_of_send {w : Worker} {o : ShardOwner} {p p' : Phase} {c : Option Call}
    {r : AsyncWriteResult} (ha : Advance cfg w o p p' c (some r)) : p = .sending r := by
  cases ha
  rfl

lemma WriteToShardReachable.sentOk (hs : WriteToShardReachable cfg s) : SentOk cfg s := by
  induction hs with
  | init => exact ⟨List.nodup_nil, by simp [WriteToShardState.init]⟩
  | @step s s' hreach hstep ih =>
    cases hstep with
    | @worker w o p c r ho ha _ =>
      cases r with
      | none => simpa [WriteToShardState.move, SentOk] using ih
      | some r =>
        have hun := (WriteToShardReachable.workersInv cfg hreach).entry_unsent ho ha.sending_of_send
        have hlt : w.entry < cfg.n := (List.getElem?_eq_some_iff.mp ho).1
        refine ⟨?_, ?_⟩
        · simpa [WriteToShardState.move, List.nodup_append] using ⟨ih.1, hun⟩
        · simpa [WriteToShardState.move, or_imp, forall_and, hlt] using ih.2
    | takeClosing | takeTimeout | receive | finish | fireTimer | close => exact ih

lemma WriteToShardReachable.sent_length_le_of (hs : WriteToShardReachable cfg s) {ks : List Nat}
    (hks : ∀ d ∈ s.sent, d.worker.entry ∈ ks) : s.sent.length ≤ ks.length := by
  have hsub : s.sent.map (·.worker.entry) ⊆ ks := fun i hi => by
    obtain ⟨d, hd, rfl⟩ := List.mem_map.mp hi
    exact hks d hd
  simpa using (List.subperm_of_subset hs.sentOk.1 hsub).length_le

lemma WriteToShardReachable.sent_length_le
    (hs : WriteToShardReachable cfg s) : s.sent.length ≤ cfg.n := by
  simpa using hs.sent_length_le_of fun d hd => List.mem_range.mpr (hs.sentOk.2 d hd)

lemma WriteToShardReachable.sent_length_lt (hs : WriteToShardReachable cfg s) {w : Worker}
    {o : ShardOwner}
    {r : AsyncWriteResult} (ho : cfg.shard.owners[w.entry]? = some o) (hp : s.phase w = .sending r) :
    s.sent.length < cfg.n := by
  have hun := (WriteToShardReachable.workersInv cfg hs).entry_unsent ho hp
  have hw : w.entry ∈ List.range cfg.n := List.mem_range.mpr (List.getElem?_eq_some_iff.mp ho).1
  have := hs.sent_length_le_of fun d hd =>
    (List.mem_erase_of_ne (hun d hd)).mpr (List.mem_range.mpr (hs.sentOk.2 d hd))
  rw [List.length_erase_of_mem hw, List.length_range] at this
  have : 0 < cfg.n := List.mem_range.mp hw |>.trans_le' (Nat.zero_le _)
  omega

lemma WorkersInv.done_sent (hi : WorkersInv cfg s) {w : Worker} {o : ShardOwner}
    (ho : cfg.shard.owners[w.entry]? = some o) (hd : s.phase w = .done)
    (hns : ¬ Skips cfg o w.attempt) : ∃ d ∈ s.sent, d.worker = w := by
  have hok := hi.owned w o ho
  rw [hd] at hok
  rcases hok with ⟨hs, -⟩ | ⟨r, -, hds⟩
  · exact absurd hs hns
  · exact ⟨⟨w, r⟩, List.mem_of_mem_filter (hds ▸ List.mem_singleton_self _), rfl⟩

lemma WorkersInv.entry_sent (hi : WorkersInv cfg s) {i : Nat} {o : ShardOwner}
    (ho : cfg.shard.owners[i]? = some o) (hl : s.phase ⟨i, .localWrite⟩ = .done)
    (hr : s.phase ⟨i, .remoteWrite⟩ = .done) : ∃ d ∈ s.sent, d.worker.entry = i := by
  obtain ⟨a, hd, hns⟩ : ∃ a, s.phase ⟨i, a⟩ = .done ∧ ¬ Skips cfg o a := by
    by_cases h : cfg.nodeID = o.nodeID
    exacts [⟨.localWrite, hl, by simpa [Skips] using h⟩,
      ⟨.remoteWrite, hr, by simpa [Skips] using h⟩]
  obtain ⟨d, hd, hw⟩ := @WorkersInv.done_sent cfg s hi ⟨i, a⟩ o ho hd hns
  exact ⟨d, hd, by rw [hw]⟩

/-- Every goroutine that has not returned can take a step towards returning: its collaborator
calls return whatever the collaborators answer, and its send finds room in the channel. -/
lemma WriteToShardReachable.worker_progress (hs : WriteToShardReachable cfg s) {w : Worker}
    {o : ShardOwner} (ho : cfg.shard.owners[w.entry]? = some o) (hp : s.phase w ≠ .done) :
    ∃ s', WriteToShardStep cfg s s' ∧ (s'.phase w).rank < (s.phase w).rank := by
  have hok := (WriteToShardReachable.workersInv cfg hs).owned w o ho
  obtain ⟨p, c, r, ha, hroom⟩ : ∃ p c r, Advance cfg w o (s.phase w) p c r ∧
      (r.isSome → s.sent.length - s.taken < cfg.n) := by
    cases hph : s.phase w with
    | done => exact absurd hph hp
    | start =>
      by_cases hsk : Skips cfg o w.attempt
      · exact ⟨_, _, _, .skip hsk, by simp⟩
      · cases hw : w.attempt
        · exact ⟨_, _, _, .writeLocal none hw (by simpa [Skips, hw] using hsk), by simp⟩
        · exact ⟨_, _, _, .writeRemote none hw (by simpa [Skips, hw] using hsk), by simp⟩
    | handoff e =>
      rw [hph] at hok
      exact ⟨_, _, _, .handoff e none hok.1, by simp⟩
    | sending r =>
      have := hs.sent_length_lt ho hph
      exact ⟨_, _, _, .send r, fun _ => by omega⟩
  exact ⟨_, .worker ho ha hroom, by simpa [WriteToShardState.move] using ha.rank_lt⟩

/-- The channel of one `writeToShard` call, under every interleaving: each result comes from
the goroutine of its owner entry that does the work (the local one exactly for the local
node), one result at most per entry and never more than the capacity; no goroutine is ever
stuck, its send included; and an entry whose two goroutines returned has its result sent. -/
lemma WriteToShardReachable.sends_one_per_entry (hs : WriteToShardReachable cfg s) :
    (∀ d ∈ s.sent, ∃ o, cfg.shard.owners[d.worker.entry]? = some o ∧
      (d.worker.attempt = .localWrite ↔ o.nodeID = cfg.nodeID)) ∧
    (s.sent.map (·.worker.entry)).Nodup ∧ s.sent.length ≤ cfg.n ∧
    (∀ w o, cfg.shard.owners[w.entry]? = some o → s.phase w ≠ .done →
      ∃ s', WriteToShardStep cfg s s' ∧ (s'.phase w).rank < (s.phase w).rank) ∧
    (∀ i o, cfg.shard.owners[i]? = some o → s.phase ⟨i, .localWrite⟩ = .done →
      s.phase ⟨i, .remoteWrite⟩ = .done → ∃ d ∈ s.sent, d.worker.entry = i) := by
  have hi := WriteToShardReachable.workersInv cfg hs
  refine ⟨fun d hd => ?_, hs.sentOk.1, hs.sent_length_le, fun _ _ ho hp => hs.worker_progress ho hp,
    fun _ _ ho hl hr => hi.entry_sent ho hl hr⟩
  obtain ⟨o, ho, -, ⟨-, hns, -⟩, -⟩ := hi.sent_attempted hd
  refine ⟨o, ho, ?_⟩
  revert hns
  cases d.worker.attempt <;> simp [Skips, eq_comm]

end WriteToShardReachable

/-! ### What `writeToShard` returns -/

section WriteToShardReachable

variable {cfg} {s : WriteToShardState}

lemma Attempted.handoff_calls {w : Worker} {o : ShardOwner} {cs : List Call} {r : AsyncWriteResult}
    (hatt : Attempted cfg w o cs r) {i : Nat} {sid oid : UInt64} {pts : List Point}
    {h : Option Error} (hm : Call.hintedHandoff i sid oid pts h ∈ cs) :
    ∃ e, cfg.nodeID ≠ o.nodeID ∧ isRetryable (some e) = true ∧ i = w.entry ∧
      sid = cfg.shard.id ∧ oid = o.nodeID ∧ pts = cfg.points ∧
      cs = [.writeShard i sid oid pts (some e), .hintedHandoff i sid oid pts h] := by
  obtain ⟨-, hns, hcs⟩ := hatt
  cases hw : w.attempt with
  | localWrite => simp [hw] at hcs; simp [hcs] at hm
  | remoteWrite =>
    simp only [hw] at hcs hns
    rcases hcs with ⟨x, -, rfl, -⟩ | ⟨e, hh, hr, rfl, -⟩
    · simp at hm
    · obtain ⟨rfl, rfl, rfl, rfl, rfl⟩ : i = w.entry ∧ sid = cfg.shard.id ∧ oid = o.nodeID ∧
          pts = cfg.points ∧ h = hh := by simpa using hm
      exact ⟨e, by simpa [Skips] using hns, hr, rfl, rfl, rfl, rfl, rfl⟩

lemma WorkerOk.handoff_calls {w : Worker} {o : ShardOwner} {p : Phase} {cs : List Call}
    {ds : List Delivery} (hok : WorkerOk cfg w o p cs ds) {i : Nat} {sid oid : UInt64}
    {pts : List Point} {h : Option Error} (hm : Call.hintedHandoff i sid oid pts h ∈ cs) :
    ∃ e, cfg.nodeID ≠ o.nodeID ∧ isRetryable (some e) = true ∧ i = w.entry ∧
      sid = cfg.shard.id ∧ oid = o.nodeID ∧ pts = cfg.points ∧
      cs = [.writeShard i sid oid pts (some e), .hintedHandoff i sid oid pts h] := by
  cases p with
  | start => simp [hok.1] at hm
  | handoff e => simp [hok.2.2.2.1] at hm
  | sending r => exact hok.1.handoff_calls hm
  | done =>
    rcases hok with ⟨-, rfl, -⟩ | ⟨r, hatt, -⟩
    exacts [absurd hm (List.not_mem_nil _), hatt.handoff_calls hm]

end WriteToShardReachable

/-! ### Results -/

/-- A shard with one owner, the local node, written at `ONE`. -/
def oneLocalOwner : ShardWrite := ⟨⟨1, [⟨1⟩]⟩, 1, .one, []⟩

variable {cfg} in
/-- Over the whole run, goroutines still running after the collector returned included, a
hinted handoff is only made by the remote goroutine of a remote owner entry, after its own
`WriteShard` failed with an error that does not name a field type conflict, once, and with
that write's shard, owner and points. -/
theorem handoff_follows_retryable_failure {s : WriteToShardState}
    (hs : WriteToShardReachable cfg s) {i : Nat}
    {sid oid : UInt64} {pts : List Point} {h : Option Error}
    (hm : Call.hintedHandoff i sid oid pts h ∈ s.calls) :
    ∃ o e, cfg.shard.owners[i]? = some o ∧ o.nodeID ≠ cfg.nodeID ∧
      containsStr e.error "field type conflict" = false ∧
      sid = cfg.shard.id ∧ oid = o.nodeID ∧ pts = cfg.points ∧
      callsBy ⟨i, .remoteWrite⟩ s.calls =
        [.writeShard i sid oid pts (some e), .hintedHandoff i sid oid pts h] := by
  have hi := WriteToShardReachable.workersInv cfg hs
  have hm' : Call.hintedHandoff i sid oid pts h ∈ callsBy ⟨i, .remoteWrite⟩ s.calls :=
    mem_callsBy_worker.mpr hm
  cases ho : cfg.shard.owners[i]? with
  | none => simp [(hi.unowned ⟨i, .remoteWrite⟩ ho).2.1] at hm'
  | some o =>
    obtain ⟨e, hne, hr, -, rfl, rfl, rfl, hcs⟩ := (hi.owned ⟨i, .remoteWrite⟩ o ho).handoff_calls hm'
    exact ⟨o, e, rfl, Ne.symm hne, by simpa [isRetryable] using hr, rfl, rfl, rfl, hcs⟩

/-- A shard with one remote owner, written at `ONE`. -/
def oneRemoteOwner : ShardWrite := ⟨⟨1, [⟨2⟩]⟩, 1, .one, []⟩

/-- The remote write times out, which is retryable, and the goroutine hands the write off. -/
theorem handoff_after_remote_timeout :
    ∃ s, WriteToShardReachable oneRemoteOwner s ∧ Call.hintedHandoff 0 1 2 [] none ∈ s.calls ∧
      ∃ (o : ShardOwner) (e : Error), oneRemoteOwner.shard.owners[0]? = some o ∧
        o.nodeID ≠ oneRemoteOwner.nodeID ∧
        containsStr e.error "field type conflict" = false := by
  obtain ⟨s, hs, hm⟩ : ∃ s, WriteToShardReachable oneRemoteOwner s ∧ Call.hintedHandoff 0 1 2 [] none ∈ s.calls :=
    ⟨_, .step (.step .init
      (.worker (by rfl) (.writeRemote (some .timeout)
        (rfl : (⟨0, .remoteWrite⟩ : Worker).attempt = _) (by decide)) (by simp)))
      (.worker (by rfl) (.handoff .timeout none rfl : Advance _ ⟨0, .remoteWrite⟩ _ _ _ _ _)
        (by simp)), List.mem_append_right _ (List.mem_singleton_self _)⟩
  exact ⟨s, hs, hm, (handoff_follows_retryable_failure hs hm).imp
    fun _ ⟨e, ho, hn, hc, _⟩ => ⟨e, ho, hn, hc⟩⟩

/-! ### The collecting loop is never stuck -/

lemma WriteToShardReachable.waiting_progress (hN : 0 < cfg.n) {s : WriteToShardState}
    (hs : WriteToShardReachable cfg s)
    {wrote : Nat} {we : Option Error} (hc : s.collector = .waiting wrote we) :
    s.taken = cfg.n ∨ (∃ d, s.sent[s.taken]? = some d) ∨
      ∃ w o, cfg.shard.owners[w.entry]? = some o ∧ s.phase w ≠ .done := by
  by_contra hno
  push_neg at hno
  obtain ⟨hne, hnone, hdone⟩ := hno
  have hall : List.range cfg.n ⊆ s.sent.map (·.worker.entry) := fun i hi => by
    obtain ⟨o, ho⟩ : ∃ o, cfg.shard.owners[i]? = some o :=
      ⟨_, List.getElem?_eq_getElem (List.mem_range.mp hi)⟩
    obtain ⟨d, hd, rfl⟩ := (WriteToShardReachable.workersInv cfg hs).entry_sent ho
      (hdone ⟨i, .localWrite⟩ o ho) (hdone ⟨i, .remoteWrite⟩ o ho)
    exact List.mem_map_of_mem _ hd
  have hlen : cfg.n ≤ s.sent.length := by
    simpa using (List.subperm_of_subset (List.nodup_range cfg.n) hall).length_le
  obtain ⟨-, hm⟩ := WriteToShardReachable.collectorOk cfg hN hs
  simp only [hc] at hm
  have hlt : s.taken < s.sent.length := by omega
  exact hnone _ (List.getElem?_eq_getElem hlt)


variable {cfg} in
/-- The collecting loop of `writeToShard` never waits in vain, timer and closing signal apart:
while it waits, it has taken all `N` results, a result is in the channel, or a goroutine has not
returned yet (and can step, by `WriteToShardReachable.worker_progress`). -/
theorem writeToShard_collector_never_stuck (hN : 0 < cfg.n) {s : WriteToShardState}
    (hs : WriteToShardReachable cfg s)
    {wrote : Nat} {we : Option Error} (hc : s.collector = .waiting wrote we) :
    s.taken = cfg.n ∨ (∃ d, s.sent[s.taken]? = some d) ∨
      ∃ w o, cfg.shard.owners[w.entry]? = some o ∧ s.phase w ≠ .done :=
  hs.waiting_progress cfg hN hc

/-- Before anything ran, the collector of a one-owner write waits on the owner's goroutine. -/
theorem collector_waits_on_local_owner :
    ∃ w o, oneLocalOwner.shard.owners[w.entry]? = some o ∧ WriteToShardState.init.phase w ≠ .done := by
  rcases writeToShard_collector_never_stuck (by decide)
      (WriteToShardReachable.init : WriteToShardReachable oneLocalOwner _) rfl with h | ⟨d, hd⟩ | h
  · exact absurd h (by decide)
  · cases hd
  · exact h

/-! ### Every run ends -/

/-- A waiting collector still has its return ahead. -/
def Collector.rank : Collector → Nat
  | .waiting .. => 1
  | .returned _ => 0

lemma Collector.rank_le_one (c : Collector) : c.rank ≤ 1 := by
  cases c <;> simp [Collector.rank]

/-- How far the two goroutines of owner entry `i` are from returning. -/
def entryRank (phase : Worker → Phase) (i : Nat) : Nat :=
  (phase ⟨i, .localWrite⟩).rank + (phase ⟨i, .remoteWrite⟩).rank

/-- What is left of a run: the goroutines' ranks, the results still to take, the collector's
return, and the timer and the closing signal yet to fire. -/
def WriteToShardState.pending (s : WriteToShardState) : Nat :=
  ((List.range cfg.n).map (entryRank s.phase)).sum + (cfg.n - s.taken) + s.collector.rank +
    (if s.timerFired then 0 else 1) + (if s.closing then 0 else 1)

lemma entryRank_update (phase : Worker → Phase) {w : Worker} {p : Phase}
    (hp : p.rank < (phase w).rank) (i : Nat) :
    entryRank (Function.update phase w p) i ≤ entryRank phase i ∧
      (i = w.entry → entryRank (Function.update phase w p) i < entryRank phase i) := by
  obtain ⟨j, a⟩ := w
  by_cases h : i = j
  · subst h
    cases a <;> simp [entryRank, Function.update_apply] at hp ⊢ <;> omega
  · simp [entryRank, Function.update_apply, h]

section Termination

variable {cfg} {s s' : WriteToShardState}

lemma WriteToShardStep.pending_lt (h : WriteToShardStep cfg s s')
    (hne : s' ≠ s) : s'.pending cfg < s.pending cfg := by
  cases h with
  | @worker w o p c r ho ha _ =>
    have hw : w.entry ∈ List.range cfg.n :=
      List.mem_range.mpr (List.getElem?_eq_some_iff.mp ho).1
    have := List.sum_lt_sum _ _ (fun i _ => (entryRank_update s.phase ha.rank_lt i).1)
      ⟨_, hw, (entryRank_update s.phase ha.rank_lt _).2 rfl⟩
    simp only [WriteToShardState.pending, WriteToShardState.move] at this ⊢
    omega
  | takeClosing hc | takeTimeout hc | finish hc => simp [WriteToShardState.pending, hc, Collector.rank]
  | @receive wrote we d hc hk _ =>
    have := (Collector.receive cfg.required wrote we d.result).rank_le_one
    simp only [WriteToShardState.pending, hc, Collector.rank] at this ⊢
    omega
  | fireTimer =>
    cases ht : s.timerFired
    · simp [WriteToShardState.pending, ht]
    · exact absurd (by rw [← ht]) hne
  | close =>
    cases hcl : s.closing
    · simp [WriteToShardState.pending, hcl]
    · exact absurd (by rw [← hcl]) hne

lemma WriteToShardStep.eq_of_done (h : WriteToShardStep cfg s s')
    (hc : ∃ r, s.collector = .returned r)
    (hd : ∀ w o, cfg.shard.owners[w.entry]? = some o → s.phase w = .done)
    (ht : s.timerFired = true) (hcl : s.closing = true) : s' = s := by
  obtain ⟨r, hr⟩ := hc
  cases h with
  | worker ho ha => rw [hd _ _ ho] at ha; cases ha
  | takeClosing hc | takeTimeout hc | receive hc | finish hc => rw [hr] at hc; cases hc
  | fireTimer => rw [← ht]
  | close => rw [← hcl]

lemma WriteToShardReachable.done_of_final (hN : 0 < cfg.n) (hs : WriteToShardReachable cfg s)
    (hfin : ∀ s', WriteToShardStep cfg s s' → s' = s) :
    (∃ r, s.collector = .returned r) ∧
    (∀ w o, cfg.shard.owners[w.entry]? = some o → s.phase w = .done) ∧
    s.timerFired = true ∧ s.closing = true := by
  have hdone : ∀ w o, cfg.shard.owners[w.entry]? = some o → s.phase w = .done := by
    intro w o ho
    by_contra hp
    obtain ⟨s', hst, hlt⟩ := hs.worker_progress ho hp
    rw [hfin _ hst] at hlt
    exact lt_irrefl _ hlt
  refine ⟨?_, hdone, ?_, ?_⟩
  · cases hc : s.collector with
    | returned r => exact ⟨r, rfl⟩
    | waiting wrote we =>
      rcases hs.waiting_progress cfg hN hc with hn | ⟨d, hd⟩ | ⟨w, o, ho, hp⟩
      · simpa [hc] using congrArg WriteToShardState.collector (hfin _ (.finish hc hn))
      · have hk : s.taken < cfg.n :=
          (List.getElem?_eq_some_iff.mp hd).1.trans_le hs.sent_length_le
        simpa using congrArg WriteToShardState.taken (hfin _ (.receive hc hk hd))
      · exact absurd (hdone w o ho) hp
  · simpa using congrArg WriteToShardState.timerFired (hfin _ .fireTimer)
  · simpa using congrArg WriteToShardState.closing (hfin _ .close)

end Termination

variable {cfg} in
/-- Every run of one `writeToShard` call ends: no run changes the state at every step forever,
the timer and the closing signal firing once each. The reachable states where no step changes
anything are exactly those where the call returned, every goroutine of an owner entry returned,
and the timer and the closing signal fired. -/
theorem writeToShard_terminates (hN : 0 < cfg.n) :
    WellFounded (fun b a => WriteToShardStep cfg a b ∧ b ≠ a) ∧
    ∀ s, WriteToShardReachable cfg s →
      ((∀ s', WriteToShardStep cfg s s' → s' = s) ↔
        (∃ r, s.collector = .returned r) ∧
        (∀ w o, cfg.shard.owners[w.entry]? = some o → s.phase w = .done) ∧
        s.timerFired = true ∧ s.closing = true) :=
  ⟨Subrelation.wf (fun h => WriteToShardStep.pending_lt h.1 h.2) (measure (WriteToShardState.pending cfg)).wf,
    fun _ hs => ⟨hs.done_of_final hN, fun ⟨hc, hd, ht, hcl⟩ _ h => h.eq_of_done hc hd ht hcl⟩⟩

/-- The local owner of a one-owner write skips its remote goroutine, writes, sends nil, and the
collector returns nil; once the timer and the closing signal fired, no step changes anything. -/
theorem oneLocalOwner_run_ends :
    ∃ s, WriteToShardReachable oneLocalOwner s ∧ (∀ s', WriteToShardStep oneLocalOwner s s' → s' = s) ∧
      s.collector = .returned none := by
  have hs : WriteToShardReachable oneLocalOwner _ :=
    .step (.step (.step (.step (.step (.step .init
      (.worker (by rfl) (.skip (rfl : oneLocalOwner.nodeID = 1) : Advance oneLocalOwner ⟨0, .remoteWrite⟩ ⟨1⟩ _ _ _ _) (by simp)))
      (.worker (by rfl) (.writeLocal none (rfl : (⟨0, .localWrite⟩ : Worker).attempt = _) rfl)
        (by simp)))
      (.worker (by rfl) (.send _ : Advance _ ⟨0, .localWrite⟩ _ _ _ _ _) (fun _ => by decide)))
      (.receive rfl (by decide) (by rfl))) .fireTimer) .close
  refine ⟨_, hs, ((writeToShard_terminates (by decide)).2 _ hs).2
    ⟨⟨none, rfl⟩, fun w o ho => ?_, rfl, rfl⟩, rfl⟩
  obtain ⟨j, a⟩ := w
  obtain rfl : j = 0 := by
    have := (List.getElem?_eq_some_iff.mp ho).1
    simp only [oneLocalOwner, List.length_singleton] at this
    omega
  cases a <;> rfl

end InfluxCloud.Cluster
