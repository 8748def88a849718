import InfluxCloud.Cluster.MapShards
import InfluxCloud.Cluster.WriteToShard

/-!
# `WritePoints` under every interleaving

`PointsWriter.WritePoints` maps the batch with `MapShards` and starts one goroutine per bucket,
which calls `writeToShard` and sends the answer into a channel of the buckets' number. The
model is a step relation in which goroutines step on their own, the calls answer anything and
the calls and sends are ghost logs; every run ends in a finished fan-out.
-/

namespace InfluxCloud.Cluster

variable {σ : Type}

/-- The retention policy `WritePoints` writes to: the database's default when the request
names none. -/
def resolveRetentionPolicy (mc : MetaClient σ) (s : σ) (database retentionPolicy : String) :
    Except Error String :=
  if retentionPolicy = "" then
    match mc.database s database with
    | none => .error (.databaseNotFound database)
    | some db => .ok db.defaultRetentionPolicy
  else .ok retentionPolicy

/-- What `WritePoints` does before its goroutines start: the retention policy, then
`MapShards`. An error here is returned as it is. -/
def writePointsMapping (mc : MetaClient σ) (gr : Growth) (srt : GroupSort)
    (shardFor : ShardGroupInfo → UInt64 → ShardInfo) (now : Int)
    (database retentionPolicy : String) (points : List Point) (s : σ) :
    Except Error (String × ShardMapping) × σ :=
  match resolveRetentionPolicy mc s database retentionPolicy with
  | .error e => (.error e, s)
  | .ok rp =>
    match mapShards mc gr srt shardFor now ⟨database, rp, points⟩ s with
    | (.error e, s') => (.error e, s')
    | (.ok m, s') => (.ok (rp, m), s')

/-- `coordinator.IntoWriteRequest`, with the fields `WritePointsInto` reads. -/
structure IntoWriteRequest where
  database : String
  retentionPolicy : String
  points : List Point

/-- The inputs of one `WritePoints` fan-out: what every goroutine passes to `writeToShard`. -/
structure WritePointsRun where
  database : String
  retentionPolicy : String
  consistencyLevel : ConsistencyLevel
  shardMappings : ShardMapping

/-- `WritePointsInto`: `WritePoints` at consistency `ONE`, up to the start of its goroutines:
the run they share, with the resolved retention policy, or the error returned before. -/
def writePointsInto (mc : MetaClient σ) (gr : Growth) (srt : GroupSort)
    (shardFor : ShardGroupInfo → UInt64 → ShardInfo) (now : Int) (p : IntoWriteRequest) (s : σ) :
    Except Error WritePointsRun × σ :=
  match writePointsMapping mc gr srt shardFor now p.database p.retentionPolicy p.points s with
  | (.error e, s') => (.error e, s')
  | (.ok (rp, m), s') => (.ok ⟨p.database, rp, .one, m⟩, s')

/-- A bucket goroutine's `writeToShard` call, with its answer; the bucket key is ghost. -/
structure ShardWriteCall where
  key : UInt64
  shard : Option ShardInfo
  database : String
  retentionPolicy : String
  consistency : ConsistencyLevel
  points : List Point
  result : Option Error
  deriving DecidableEq, Repr

/-- Where a bucket goroutine is: before its call, about to send the call's answer, returned. -/
inductive BucketPhase where
  | start
  | sending (err : Option Error)
  | done
  deriving DecidableEq, Repr

/-- How far a bucket goroutine is from returning. -/
def BucketPhase.rank : BucketPhase → Nat
  | .start => 2
  | .sending _ => 1
  | .done => 0

/-- The collecting loop of `WritePoints`: collecting, or the value returned. -/
inductive WritePointsCollector where
  | waiting
  | returned (r : Option Error)
  deriving DecidableEq, Repr

/-- The state of one fan-out: the goroutines by bucket key, the channel as every send and the
number taken, the collector, the closing signal and the ghost call log. -/
structure WritePointsState where
  phase : UInt64 → BucketPhase
  sent : List (UInt64 × Option Error)
  taken : Nat
  collector : WritePointsCollector
  closing : Bool
  calls : List ShardWriteCall

/-- The state when the collecting loop starts. -/
def WritePointsState.init : WritePointsState := ⟨fun _ => .start, [], 0, .waiting, false, []⟩

variable (run : WritePointsRun)

/-- The number of buckets, `len(shardMappings.Points)`. -/
def WritePointsRun.n : Nat := run.shardMappings.points.entries.length

/-- The call of the goroutine of bucket `k`: `shardMappings.Shards[k]`, the bucket's points,
and the run's database, retention policy and level. -/
def WritePointsRun.call (k : UInt64) (result : Option Error) : ShardWriteCall :=
  ⟨k, run.shardMappings.shards.lookup k, run.database, run.retentionPolicy, run.consistencyLevel,
    (run.shardMappings.bucket k).elems, result⟩

/-- The collector after taking `err`: an error is returned at once. -/
def WritePointsCollector.receive : Option Error → WritePointsCollector
  | some e => .returned (some e)
  | none => .waiting

/-- One step of the fan-out: a goroutine, the collecting loop, or the closing signal. -/
inductive WritePointsStep : WritePointsState → WritePointsState → Prop
  | call {s : WritePointsState} {k : UInt64} (x : Option Error)
      (hk : k ∈ run.shardMappings.points) (hp : s.phase k = .start) :
      WritePointsStep s
        { s with phase := Function.update s.phase k (.sending x), calls := s.calls ++ [run.call k x] }
  | send {s : WritePointsState} {k : UInt64} {x : Option Error} (hp : s.phase k = .sending x)
      (hroom : s.sent.length - s.taken < run.n) :
      WritePointsStep s { s with phase := Function.update s.phase k .done, sent := s.sent ++ [(k, x)] }
  | takeClosing {s : WritePointsState} (hc : s.collector = .waiting) (hk : s.taken < run.n)
      (hcl : s.closing = true) :
      WritePointsStep s { s with collector := .returned (some .writeFailed) }
  | receive {s : WritePointsState} {k : UInt64} {x : Option Error} (hc : s.collector = .waiting)
      (hk : s.taken < run.n) (hd : s.sent[s.taken]? = some (k, x)) :
      WritePointsStep s { s with taken := s.taken + 1, collector := WritePointsCollector.receive x }
  | finish {s : WritePointsState} (hc : s.collector = .waiting) (hk : s.taken = run.n) :
      WritePointsStep s { s with collector := .returned none }
  | close {s : WritePointsState} : WritePointsStep s { s with closing := true }

/-- The states one fan-out can reach. -/
inductive WritePointsReachable : WritePointsState → Prop
  | init : WritePointsReachable WritePointsState.init
  | step {s s' : WritePointsState} :
      WritePointsReachable s → WritePointsStep run s s' → WritePointsReachable s'

/-! ### Each goroutine's log follows its phase -/

/-- The calls of the goroutine of bucket `k`. -/
def callsOf (k : UInt64) (calls : List ShardWriteCall) : List ShardWriteCall :=
  calls.filter (·.key = k)

/-- The sends of the goroutine of bucket `k`. -/
def sendsOf (k : UInt64) (sent : List (UInt64 × Option Error)) : List (UInt64 × Option Error) :=
  sent.filter (·.1 = k)

/-- The calls `cs` and sends `ds` of the goroutine of bucket `k`, given its phase. -/
def BucketOk (k : UInt64) : BucketPhase → List ShardWriteCall → List (UInt64 × Option Error) → Prop
  | .start, cs, ds => cs = [] ∧ ds = []
  | .sending x, cs, ds => cs = [run.call k x] ∧ ds = []
  | .done, cs, ds => ∃ x, cs = [run.call k x] ∧ ds = [(k, x)]

/-- Every goroutine's log follows its phase; keys without a bucket never run. -/
structure BucketsInv (s : WritePointsState) : Prop where
  bucket : ∀ k, BucketOk run k (s.phase k) (callsOf k s.calls) (sendsOf k s.sent)
  unmapped : ∀ k, k ∉ run.shardMappings.points → s.phase k = .start

@[simp] lemma callsOf_append (k : UInt64) (cs cs' : List ShardWriteCall) :
    callsOf k (cs ++ cs') = callsOf k cs ++ callsOf k cs' := List.filter_append _ _

@[simp] lemma sendsOf_append (k : UInt64) (ds ds' : List (UInt64 × Option Error)) :
    sendsOf k (ds ++ ds') = sendsOf k ds ++ sendsOf k ds' := List.filter_append _ _

lemma mem_of_callsOf_eq {k : UInt64} {cs : List ShardWriteCall} {c : ShardWriteCall}
    (h : callsOf k cs = [c]) : c ∈ cs :=
  List.mem_of_mem_filter (h ▸ List.mem_singleton_self c : c ∈ callsOf k cs)

@[simp] lemma callsOf_call (k k' : UInt64) (x : Option Error) :
    callsOf k [run.call k' x] = if k' = k then [run.call k' x] else [] := by
  simp [callsOf, List.filter_singleton, WritePointsRun.call]

@[simp] lemma sendsOf_single (k k' : UInt64) (x : Option Error) :
    sendsOf k [(k', x)] = if k' = k then [(k', x)] else [] := by
  simp [sendsOf, List.filter_singleton]

lemma bucketsInv_init : BucketsInv run WritePointsState.init :=
  ⟨fun _ => ⟨rfl, rfl⟩, fun _ _ => rfl⟩

lemma BucketsInv.step {s s' : WritePointsState} (hi : BucketsInv run s)
    (hs : WritePointsStep run s s') : BucketsInv run s' := by
  cases hs with
  | @call k x hk hp =>
    refine ⟨fun k' => ?_, fun k' hk' => ?_⟩
    · have hb := hi.bucket k'
      by_cases h : k' = k
      · subst h
        rw [hp] at hb
        simp [hb.1, hb.2, BucketOk]
      · simpa [Function.update_noteq h, Ne.symm h] using hb
    · have h : k' ≠ k := by rintro rfl; exact hk' hk
      simpa [Function.update_noteq h] using hi.unmapped k' hk'
  | @send k x hp _ =>
    refine ⟨fun k' => ?_, fun k' hk' => ?_⟩
    · have hb := hi.bucket k'
      by_cases h : k' = k
      · subst h
        rw [hp] at hb
        simpa [BucketOk, hb.2] using hb.1
      · simpa [Function.update_noteq h, Ne.symm h] using hb
    · have h : k' ≠ k := by rintro rfl; simp [hi.unmapped k' hk'] at hp
      simpa [Function.update_noteq h] using hi.unmapped k' hk'
  | takeClosing | receive | finish | close => exact ⟨hi.1, hi.2⟩

lemma WritePointsReachable.bucketsInv {s : WritePointsState} (hs : WritePointsReachable run s) :
    BucketsInv run s := by
  induction hs with
  | init => exact bucketsInv_init run
  | step _ hstep ih => exact ih.step run hstep

/-! ### The logs: one call and one send per bucket -/

/-- Calls and sends are one per bucket key, and only for keys with a bucket. -/
def LogsOk (s : WritePointsState) : Prop :=
  (s.calls.map (·.key)).Nodup ∧ (s.sent.map (·.1)).Nodup ∧
    ∀ d ∈ s.sent, d.1 ∈ run.shardMappings.points

section Reachable

variable {run} {s : WritePointsState}

lemma BucketsInv.call_keys_ne (hi : BucketsInv run s) {k : UInt64} (hp : s.phase k = .start) :
    ∀ c ∈ s.calls, c.key ≠ k := by
  have hb := hi.bucket k
  rw [hp] at hb
  simpa [callsOf, List.filter_eq_nil_iff] using hb.1

lemma BucketsInv.sent_keys_ne (hi : BucketsInv run s) {k : UInt64} {x : Option Error}
    (hp : s.phase k = .sending x) : ∀ d ∈ s.sent, d.1 ≠ k := by
  have hb := hi.bucket k
  rw [hp] at hb
  simpa [sendsOf, List.filter_eq_nil_iff] using hb.2

lemma BucketsInv.done_sent (hi : BucketsInv run s) {k : UInt64} (hp : s.phase k = .done) :
    ∃ x, (k, x) ∈ s.sent := by
  have hb := hi.bucket k
  rw [hp] at hb
  obtain ⟨x, -, hds⟩ := hb
  exact ⟨x, List.mem_of_mem_filter (hds ▸ List.mem_singleton_self _ : (k, x) ∈ sendsOf k s.sent)⟩

lemma BucketsInv.mem_points (hi : BucketsInv run s) {k : UInt64} (hp : s.phase k ≠ .start) :
    k ∈ run.shardMappings.points := by
  by_contra hk
  exact hp (hi.unmapped k hk)

lemma WritePointsReachable.logsOk (hs : WritePointsReachable run s) : LogsOk run s := by
  induction hs with
  | init => exact ⟨List.nodup_nil, List.nodup_nil, by simp [WritePointsState.init]⟩
  | @step s s' hreach hstep ih =>
    have hi := hreach.bucketsInv run
    obtain ⟨hc, hd, hm⟩ := ih
    cases hstep with
    | @call k x hk hp =>
      exact ⟨by simpa [List.nodup_append, WritePointsRun.call] using ⟨hc, hi.call_keys_ne hp⟩,
        hd, hm⟩
    | @send k x hp _ =>
      have hk : k ∈ run.shardMappings.points := hi.mem_points (by simp [hp])
      exact ⟨hc, by simpa [List.nodup_append] using ⟨hd, fun x' h => hi.sent_keys_ne hp _ h rfl⟩,
        by simpa [or_imp, forall_and, hk] using hm⟩
    | takeClosing | receive | finish | close => exact ⟨hc, hd, hm⟩

lemma BucketsInv.callsOf_eq (hi : BucketsInv run s) {k : UInt64} (hp : s.phase k ≠ .start) :
    ∃ x, callsOf k s.calls = [run.call k x] := by
  have hb := hi.bucket k
  revert hb hp
  cases s.phase k with
  | start => exact fun h => absurd rfl h
  | sending x => exact fun _ hb => ⟨x, hb.1⟩
  | done => exact fun _ ⟨x, hcs, _⟩ => ⟨x, hcs⟩

lemma BucketsInv.call_of_mem (hi : BucketsInv run s) {c : ShardWriteCall} (hc : c ∈ s.calls) :
    c = run.call c.key c.result ∧ c.key ∈ run.shardMappings.points := by
  have hmem : c ∈ callsOf c.key s.calls := List.mem_filter.mpr ⟨hc, by simp⟩
  have hp : s.phase c.key ≠ .start := fun hp => hi.call_keys_ne hp c hc rfl
  obtain ⟨x, hcs⟩ := hi.callsOf_eq hp
  rw [hcs, List.mem_singleton] at hmem
  exact ⟨hmem.trans (by rw [hmem]; rfl), hi.mem_points hp⟩

lemma BucketsInv.call_of_sent (hi : BucketsInv run s) {d : UInt64 × Option Error}
    (hd : d ∈ s.sent) : run.call d.1 d.2 ∈ s.calls := by
  have hmem : d ∈ sendsOf d.1 s.sent := List.mem_filter.mpr ⟨hd, by simp⟩
  have hb := hi.bucket d.1
  generalize s.phase d.1 = p at hb
  cases p with
  | start | sending => simp [hb.2] at hmem
  | done =>
    obtain ⟨x, hcs, hds⟩ := hb
    have hdx : d = (d.1, x) := by simpa [hds] using hmem
    rw [hdx]
    exact mem_of_callsOf_eq hcs

lemma WritePointsReachable.sent_length_le (hs : WritePointsReachable run s) {ks : List UInt64}
    (hks : ∀ d ∈ s.sent, d.1 ∈ ks) : s.sent.length ≤ ks.length := by
  have hsub : s.sent.map (·.1) ⊆ ks := fun k hk => by
    obtain ⟨d, hd, rfl⟩ := List.mem_map.mp hk
    exact hks d hd
  simpa using (List.subperm_of_subset hs.logsOk.2.1 hsub).length_le

lemma WritePointsRun.n_eq_keys : run.n = run.shardMappings.points.keys.length := by
  simp [WritePointsRun.n, AList.keys, List.keys]

lemma WritePointsReachable.sent_length_lt (hs : WritePointsReachable run s) {k : UInt64}
    {x : Option Error} (hp : s.phase k = .sending x) : s.sent.length < run.n := by
  have hi := hs.bucketsInv run
  have hk : k ∈ run.shardMappings.points.keys := hi.mem_points (by simp [hp])
  have := hs.sent_length_le fun d hd =>
    (List.mem_erase_of_ne (hi.sent_keys_ne hp d hd)).mpr (hs.logsOk.2.2 d hd)
  rw [List.length_erase_of_mem hk] at this
  have := List.length_pos_of_mem hk
  rw [WritePointsRun.n_eq_keys]
  omega

end Reachable

/-! ### The collector follows the answers it took -/

/-- The first error among the answers `xs`. -/
def firstFailure (xs : List (Option Error)) : Option Error := (xs.filterMap id).head?

@[simp] lemma firstFailure_append (xs ys : List (Option Error)) :
    firstFailure (xs ++ ys) = (firstFailure xs).or (firstFailure ys) := by
  simp [firstFailure, List.filterMap_append, List.head?_append]

@[simp] lemma firstFailure_singleton (x : Option Error) : firstFailure [x] = x := by
  cases x <;> rfl

/-- The answers the collector took, in order. -/
def WritePointsState.received (s : WritePointsState) : List (Option Error) :=
  (s.sent.take s.taken).map (·.2)

/-- The collector's state, read off the answers it took. -/
def WritePointsCollectorOk (s : WritePointsState) : Prop :=
  s.taken ≤ s.sent.length ∧
    match s.collector with
    | .waiting => s.taken ≤ run.n ∧ firstFailure s.received = none
    | .returned r =>
        (r = none ∧ s.taken = run.n ∧ firstFailure s.received = none) ∨
        (r = some .writeFailed ∧ s.closing = true ∧ firstFailure s.received = none) ∨
        (r ≠ none ∧ r = firstFailure s.received)

lemma WritePointsCollectorOk.step {s s' : WritePointsState} (hi : WritePointsCollectorOk run s)
    (hs : WritePointsStep run s s') : WritePointsCollectorOk run s' := by
  obtain ⟨hk, hc⟩ := hi
  cases hs with
  | call => exact ⟨hk, hc⟩
  | @send k x _ _ =>
    have hr : ({ s with phase := Function.update s.phase k .done, sent := s.sent ++ [(k, x)] } :
        WritePointsState).received = s.received := by
      simp [WritePointsState.received, List.take_append_of_le_length hk]
    refine ⟨by simp; omega, ?_⟩
    simpa only [hr] using hc
  | takeClosing hcol hlt hcl =>
    simp only [hcol] at hc
    exact ⟨hk, .inr (.inl ⟨rfl, hcl, hc.2⟩)⟩
  | @receive k x hcol hlt hd =>
    simp only [hcol] at hc
    have hlen : s.taken < s.sent.length := (List.getElem?_eq_some_iff.mp hd).1
    have hrec : ∀ c, ({ s with taken := s.taken + 1, collector := c } : WritePointsState).received =
        s.received ++ [x] := fun _ => by
      simp [WritePointsState.received, List.take_succ, hd]
    refine ⟨hlen, ?_⟩
    cases x with
    | some e => exact .inr (.inr ⟨by simp, by simp [hrec, hc.2]⟩)
    | none => exact ⟨hlt, by simp [hrec, hc.2]⟩
  | finish hcol heq =>
    simp only [hcol] at hc
    exact ⟨hk, .inl ⟨rfl, heq, hc.2⟩⟩
  | close =>
    refine ⟨hk, ?_⟩
    cases hcol : s.collector with
    | waiting => simpa [hcol] using hc
    | returned r =>
      simp only [hcol] at hc ⊢
      rcases hc with h | ⟨h1, -, h2⟩ | h
      exacts [.inl h, .inr (.inl ⟨h1, trivial, h2⟩), .inr (.inr h)]

lemma WritePointsReachable.collectorOk {s : WritePointsState} (hs : WritePointsReachable run s) :
    WritePointsCollectorOk run s := by
  induction hs with
  | init => exact ⟨le_rfl, Nat.zero_le _, rfl⟩
  | step _ hstep ih => exact ih.step run hstep

lemma firstFailure_eq_none {xs : List (Option Error)} :
    firstFailure xs = none ↔ ∀ x ∈ xs, x = none := by
  simp [firstFailure, List.filterMap_eq_nil_iff]

lemma mem_of_firstFailure_eq_some {xs : List (Option Error)} {e : Error}
    (h : firstFailure xs = some e) : some e ∈ xs := by
  obtain ⟨x, hx, hxe⟩ := List.mem_filterMap.mp (List.mem_of_mem_head? h)
  exact hxe ▸ hx

section Reachable

variable {run} {s : WritePointsState}

lemma WritePointsReachable.all_keys_taken (hs : WritePointsReachable run s)
    (hle : s.taken ≤ s.sent.length) (hn : s.taken = run.n) {k : UInt64}
    (hk : k ∈ run.shardMappings.points) :
    ∃ d ∈ s.sent.take s.taken, d.1 = k := by
  have hnd : ((s.sent.take s.taken).map (·.1)).Nodup :=
    hs.logsOk.2.1.sublist ((List.take_sublist _ _).map _)
  have hsub : (s.sent.take s.taken).map (·.1) ⊆ run.shardMappings.points.keys := fun k hk => by
    obtain ⟨d, hd, rfl⟩ := List.mem_map.mp hk
    exact hs.logsOk.2.2 d (List.mem_of_mem_take hd)
  have hperm := (List.subperm_of_subset hnd hsub).perm_of_length_le (by
    rw [List.length_map, List.length_take, ← WritePointsRun.n_eq_keys]
    omega)
  obtain ⟨d, hd, rfl⟩ := List.mem_map.mp (hperm.symm.subset (AList.mem_keys.mpr hk))
  exact ⟨d, hd, rfl⟩

/-- A bucket goroutine that has not returned can take a step towards returning: its
`writeToShard` call returns whatever it answers, and its send finds room in the channel. -/
lemma WritePointsReachable.bucket_progress (hs : WritePointsReachable run s) {k : UInt64}
    (hk : k ∈ run.shardMappings.points) (hp : s.phase k ≠ .done) :
    ∃ s', WritePointsStep run s s' ∧ (s'.phase k).rank < (s.phase k).rank := by
  cases hph : s.phase k with
  | done => exact absurd hph hp
  | start => exact ⟨_, .call none hk hph, by simp [BucketPhase.rank]⟩
  | sending x =>
    have := hs.sent_length_lt hph
    exact ⟨_, .send hph (by omega), by simp [BucketPhase.rank]⟩

/-- The channel of one fan-out, under every interleaving: one answer at most per bucket, only
from buckets, never more than the capacity; no goroutine is ever stuck, its send included;
and a goroutine that returned has sent its answer. -/
lemma WritePointsReachable.sends_one_per_bucket (hs : WritePointsReachable run s) :
    (s.sent.map (·.1)).Nodup ∧ (∀ d ∈ s.sent, d.1 ∈ run.shardMappings.points) ∧
    s.sent.length ≤ run.n ∧
    (∀ k ∈ run.shardMappings.points, s.phase k ≠ .done →
      ∃ s', WritePointsStep run s s' ∧ (s'.phase k).rank < (s.phase k).rank) ∧
    (∀ k, s.phase k = .done → ∃ x, (k, x) ∈ s.sent) := by
  refine ⟨hs.logsOk.2.1, hs.logsOk.2.2, ?_, fun _ hk hp => hs.bucket_progress hk hp,
    fun _ hp => (hs.bucketsInv run).done_sent hp⟩
  rw [WritePointsRun.n_eq_keys]
  exact hs.sent_length_le hs.logsOk.2.2

end Reachable

/-! ### Results -/

variable {run} in
/-- Under every interleaving of the bucket goroutines with the collecting loop: every
`writeToShard` call is its bucket's, with `shardMappings.Shards[k]` and exactly the points
`shardMappings.Points[k]`; there is at most one call per bucket, and one for every goroutine
that started. When the writer was not closed, `WritePoints` returns nil exactly when every
bucket's call answered nil, and otherwise the first error in the order the answers were
sent. -/
theorem writePoints_result {s : WritePointsState} (hs : WritePointsReachable run s) :
    (∀ c ∈ s.calls, c.key ∈ run.shardMappings.points ∧
      c.shard = run.shardMappings.shards.lookup c.key ∧ c.database = run.database ∧
      c.retentionPolicy = run.retentionPolicy ∧ c.consistency = run.consistencyLevel ∧
      c.points = (run.shardMappings.bucket c.key).elems) ∧
    (s.calls.map (·.key)).Nodup ∧
    (∀ k ∈ run.shardMappings.points, s.phase k ≠ .start → ∃ c ∈ s.calls, c.key = k) ∧
    (∀ r, s.collector = .returned r → s.closing = false →
      (r = none ↔ ∀ k ∈ run.shardMappings.points, ∃ c ∈ s.calls, c.key = k ∧ c.result = none) ∧
      (r ≠ none → r = firstFailure (s.sent.map (·.2)))) := by
  have hi := hs.bucketsInv run
  have hl := hs.logsOk
  refine ⟨fun c hc => ?_, hl.1, fun k _ hp => ?_, fun r hr hcl => ?_⟩
  · obtain ⟨h, hk⟩ := hi.call_of_mem hc
    rw [h]
    exact ⟨hk, rfl, rfl, rfl, rfl, rfl⟩
  · obtain ⟨x, hcs⟩ := hi.callsOf_eq hp
    exact ⟨_, mem_of_callsOf_eq hcs, rfl⟩
  · obtain ⟨hle, hm⟩ := hs.collectorOk
    simp only [hr] at hm
    rcases hm with ⟨rfl, hn, hnone⟩ | ⟨-, hcl', -⟩ | ⟨hne, heq⟩
    · refine ⟨iff_of_true rfl fun k hk => ?_, fun h => absurd rfl h⟩
      obtain ⟨d, hd, rfl⟩ := hs.all_keys_taken hle hn hk
      have hd2 : d.2 = none := firstFailure_eq_none.mp hnone _ (List.mem_map_of_mem _ hd)
      exact ⟨_, hi.call_of_sent (List.mem_of_mem_take hd), rfl, hd2⟩
    · simp [hcl] at hcl'
    · obtain ⟨e, rfl⟩ := Option.ne_none_iff_exists'.mp hne
      have hsplit : s.sent.map (·.2) = s.received ++ (s.sent.drop s.taken).map (·.2) := by
        rw [WritePointsState.received, ← List.map_append, List.take_append_drop]
      refine ⟨iff_of_false hne fun hall => ?_,
        fun _ => by rw [hsplit, firstFailure_append, ← heq]; rfl⟩
      obtain ⟨d, hd, hde⟩ := List.mem_map.mp (mem_of_firstFailure_eq_some heq.symm)
      have hd' := List.mem_of_mem_take hd
      obtain ⟨c, hc, hck, hcr⟩ := hall d.1 (hl.2.2 d hd')
      have := List.inj_on_of_nodup_map hl.1 (hi.call_of_sent hd') hc hck.symm
      simp [← this, WritePointsRun.call, hde] at hcr

/-- A mapping with one bucket, key 1, holding one point. -/
def oneBucketRun : WritePointsRun :=
  ⟨"db", "rp", .one, (newShardMapping 1).mapPoint doubling ⟨1, [⟨1⟩]⟩ ⟨0, 0⟩⟩

/-- The one bucket's call times out, and `WritePoints` returns that error. -/
theorem writePoints_returns_bucket_timeout :
    ∃ s, WritePointsReachable oneBucketRun s ∧ s.collector = .returned (some .timeout) ∧
      s.closing = false ∧ firstFailure (s.sent.map (·.2)) = some .timeout := by
  obtain ⟨s, hs, hc, hcl⟩ : ∃ s, WritePointsReachable oneBucketRun s ∧
      s.collector = .returned (some .timeout) ∧ s.closing = false :=
    ⟨_, .step (.step (.step .init
      (@WritePointsStep.call oneBucketRun _ 1 (some .timeout) (by decide) rfl))
      (@WritePointsStep.send oneBucketRun _ 1 (some .timeout) rfl (by decide)))
      (@WritePointsStep.receive oneBucketRun _ 1 (some .timeout) rfl (by decide) rfl), rfl, rfl⟩
  exact ⟨s, hs, hc, hcl, ((writePoints_result hs).2.2.2 _ hc hcl).2 (by simp) |>.symm⟩

lemma WritePointsReachable.waiting_progress {s : WritePointsState} (hs : WritePointsReachable run s)
    (hc : s.collector = .waiting) :
    s.taken = run.n ∨ (∃ d, s.sent[s.taken]? = some d) ∨
      ∃ k ∈ run.shardMappings.points, s.phase k ≠ .done := by
  by_contra hno
  push_neg at hno
  obtain ⟨hne, hnone, hdone⟩ := hno
  have hall : run.shardMappings.points.keys ⊆ s.sent.map (·.1) := fun k hk => by
    obtain ⟨x, hx⟩ := (hs.bucketsInv run).done_sent (hdone k (AList.mem_keys.mp hk))
    exact List.mem_map_of_mem (·.1) hx
  have hlen : run.n ≤ s.sent.length := by
    rw [WritePointsRun.n_eq_keys]
    simpa using (List.subperm_of_subset run.shardMappings.points.keys_nodup hall).length_le
  obtain ⟨-, hm⟩ := hs.collectorOk
  simp only [hc] at hm
  have hlt : s.taken < s.sent.length := by omega
  exact hnone _ (List.getElem?_eq_getElem hlt)


variable {run} in
/-- The collecting loop of `WritePoints` never waits in vain: while it waits, it has taken an
answer from every bucket, an answer is in the channel, or a bucket goroutine has not returned
yet (and can step, by `WritePointsReachable.bucket_progress`). -/
theorem writePoints_collector_never_stuck {s : WritePointsState} (hs : WritePointsReachable run s)
    (hc : s.collector = .waiting) :
    s.taken = run.n ∨ (∃ d, s.sent[s.taken]? = some d) ∨
      ∃ k ∈ run.shardMappings.points, s.phase k ≠ .done :=
  hs.waiting_progress run hc

/-- Before anything ran, the collector of the one-bucket run waits on the bucket's goroutine. -/
theorem writePoints_collector_waits_on_bucket :
    ∃ k ∈ oneBucketRun.shardMappings.points, WritePointsState.init.phase k ≠ .done := by
  rcases writePoints_collector_never_stuck
      (WritePointsReachable.init : WritePointsReachable oneBucketRun _) rfl with h | ⟨d, hd⟩ | h
  · exact absurd h (by decide)
  · cases hd
  · exact h

/-- The result channels of `writeToShard` and of `WritePoints`, under every interleaving, early
returns of the collectors included. In `writeToShard` each result comes from the goroutine of
its owner entry that does the work (the local one exactly when the owner is the local node),
one at most per entry, never more than `len(shard.Owners)`, and an entry whose goroutines both
returned has sent one. In `WritePoints` each bucket goroutine sends one answer, never more than
the number of buckets. In both, a goroutine that has not returned can always step towards
returning, its send included. -/
theorem result_channels_never_block :
    (∀ (cfg : ShardWrite) (s : WriteToShardState), WriteToShardReachable cfg s →
      (∀ d ∈ s.sent, ∃ o, cfg.shard.owners[d.worker.entry]? = some o ∧
        (d.worker.attempt = .localWrite ↔ o.nodeID = cfg.nodeID)) ∧
      (s.sent.map (·.worker.entry)).Nodup ∧ s.sent.length ≤ cfg.n ∧
      (∀ w o, cfg.shard.owners[w.entry]? = some o → s.phase w ≠ .done →
        ∃ s', WriteToShardStep cfg s s' ∧ (s'.phase w).rank < (s.phase w).rank) ∧
      (∀ i o, cfg.shard.owners[i]? = some o → s.phase ⟨i, .localWrite⟩ = .done →
        s.phase ⟨i, .remoteWrite⟩ = .done → ∃ d ∈ s.sent, d.worker.entry = i)) ∧
    (∀ (run : WritePointsRun) (s : WritePointsState), WritePointsReachable run s →
      (s.sent.map (·.1)).Nodup ∧ (∀ d ∈ s.sent, d.1 ∈ run.shardMappings.points) ∧
      s.sent.length ≤ run.n ∧
      (∀ k ∈ run.shardMappings.points, s.phase k ≠ .done →
        ∃ s', WritePointsStep run s s' ∧ (s'.phase k).rank < (s.phase k).rank) ∧
      (∀ k, s.phase k = .done → ∃ x, (k, x) ∈ s.sent)) :=
  ⟨fun _ _ hs => hs.sends_one_per_entry, fun _ _ hs => hs.sends_one_per_bucket⟩

/-! ### Every run ends -/

/-- A waiting collector still has its return ahead. -/
def WritePointsCollector.rank : WritePointsCollector → Nat
  | .waiting => 1
  | .returned _ => 0

/-- What is left of a fan-out: the bucket goroutines' ranks, the answers still to take, the
collector's return, and the closing signal yet to fire. -/
def WritePointsState.pending (s : WritePointsState) : Nat :=
  (run.shardMappings.points.keys.map fun k => (s.phase k).rank).sum + (run.n - s.taken) +
    s.collector.rank + (if s.closing then 0 else 1)

lemma rank_sum_update (phase : UInt64 → BucketPhase) {ks : List UInt64} {k : UInt64}
    {p : BucketPhase} (hk : k ∈ ks) (hp : p.rank < (phase k).rank) :
    (ks.map fun k' => (Function.update phase k p k').rank).sum <
      (ks.map fun k' => (phase k').rank).sum := by
  refine List.sum_lt_sum _ _ (fun k' _ => ?_) ⟨k, hk, by simpa using hp⟩
  by_cases h : k' = k
  · subst h
    simpa using hp.le
  · simp [Function.update_noteq h]

section Termination

variable {run} {s s' : WritePointsState}

lemma WritePointsReachable.pending_lt (hs : WritePointsReachable run s)
    (h : WritePointsStep run s s') (hne : s' ≠ s) : s'.pending run < s.pending run := by
  cases h with
  | @call k x hk hp =>
    have := rank_sum_update s.phase (AList.mem_keys.mpr hk)
      (by rw [hp]; simp [BucketPhase.rank] : (BucketPhase.sending x).rank < (s.phase k).rank)
    simp only [WritePointsState.pending] at this ⊢
    omega
  | @send k x hp _ =>
    have hk := (hs.bucketsInv run).mem_points (by simp [hp] : s.phase k ≠ .start)
    have := rank_sum_update s.phase (AList.mem_keys.mpr hk)
      (by rw [hp]; simp [BucketPhase.rank] : BucketPhase.done.rank < (s.phase k).rank)
    simp only [WritePointsState.pending] at this ⊢
    omega
  | takeClosing hc | finish hc => simp [WritePointsState.pending, hc, WritePointsCollector.rank]
  | @receive k x hc hk _ =>
    have : (WritePointsCollector.receive x).rank ≤ 1 := by
      cases x <;> simp [WritePointsCollector.receive, WritePointsCollector.rank]
    simp only [WritePointsState.pending, hc, WritePointsCollector.rank] at this ⊢
    omega
  | close =>
    cases hcl : s.closing
    · simp [WritePointsState.pending, hcl]
    · exact absurd (by rw [← hcl]) hne

lemma WritePointsReachable.acc (hs : WritePointsReachable run s) :
    Acc (fun b a => WritePointsStep run a b ∧ b ≠ a) s := by
  suffices ∀ m s, s.pending run < m → WritePointsReachable run s →
      Acc (fun b a => WritePointsStep run a b ∧ b ≠ a) s from this _ s (Nat.lt_succ_self _) hs
  intro m
  induction m with
  | zero => exact fun _ h => absurd h (Nat.not_lt_zero _)
  | succ m ih =>
    refine fun s hm hs => Acc.intro s fun b ⟨hst, hne⟩ => ih b ?_ (.step hs hst)
    have := hs.pending_lt hst hne
    omega

lemma WritePointsReachable.eq_of_done (hs : WritePointsReachable run s)
    (h : WritePointsStep run s s') (hc : ∃ r, s.collector = .returned r)
    (hd : ∀ k ∈ run.shardMappings.points, s.phase k = .done) (hcl : s.closing = true) :
    s' = s := by
  obtain ⟨r, hr⟩ := hc
  cases h with
  | call _ hk hp => rw [hd _ hk] at hp; cases hp
  | @send k x hp _ =>
    rw [hd _ ((hs.bucketsInv run).mem_points (by simp [hp] : s.phase k ≠ .start))] at hp
    cases hp
  | takeClosing hc | receive hc | finish hc => rw [hr] at hc; cases hc
  | close => rw [← hcl]

lemma WritePointsReachable.done_of_final (hs : WritePointsReachable run s)
    (hfin : ∀ s', WritePointsStep run s s' → s' = s) :
    (∃ r, s.collector = .returned r) ∧ (∀ k ∈ run.shardMappings.points, s.phase k = .done) ∧
      s.closing = true := by
  have hdone : ∀ k ∈ run.shardMappings.points, s.phase k = .done := by
    intro k hk
    by_contra hp
    obtain ⟨s', hst, hlt⟩ := hs.bucket_progress hk hp
    rw [hfin _ hst] at hlt
    exact lt_irrefl _ hlt
  refine ⟨?_, hdone, by simpa using congrArg WritePointsState.closing (hfin _ .close)⟩
  cases hc : s.collector with
  | returned r => exact ⟨r, rfl⟩
  | waiting =>
    rcases hs.waiting_progress run hc with hn | ⟨⟨k, x⟩, hd⟩ | ⟨k, hk, hp⟩
    · simpa [hc] using congrArg WritePointsState.collector (hfin _ (.finish hc hn))
    · have hk : s.taken < run.n := by
        have := (List.getElem?_eq_some_iff.mp hd).1
        have := hs.sent_length_le hs.logsOk.2.2
        rw [← WritePointsRun.n_eq_keys] at this
        omega
      simpa using congrArg WritePointsState.taken (hfin _ (.receive hc hk hd))
    · exact absurd (hdone k hk) hp

end Termination

variable {run} in
/-- Every run of `WritePoints`' fan-out ends: from a reachable state, no run changes the state
at every step forever, the closing signal firing once. The reachable states where no step
changes anything are exactly those where the collecting loop returned, every bucket goroutine
returned, and the closing signal fired. -/
theorem writePoints_terminates {s : WritePointsState} (hs : WritePointsReachable run s) :
    Acc (fun b a => WritePointsStep run a b ∧ b ≠ a) s ∧
    ((∀ s', WritePointsStep run s s' → s' = s) ↔
      (∃ r, s.collector = .returned r) ∧ (∀ k ∈ run.shardMappings.points, s.phase k = .done) ∧
      s.closing = true) :=
  ⟨hs.acc, ⟨hs.done_of_final, fun ⟨hc, hd, hcl⟩ _ h => hs.eq_of_done h hc hd hcl⟩⟩

/-- Every run of the one-bucket fan-out from its start is finite. -/
theorem oneBucketRun_runs_end :
    Acc (fun b a => WritePointsStep oneBucketRun a b ∧ b ≠ a) WritePointsState.init :=
  (writePoints_terminates (WritePointsReachable.init : WritePointsReachable oneBucketRun _)).1

end InfluxCloud.Cluster
