import InfluxCloud.Cluster.ShardGroupList
import InfluxCloud.Cluster.ShardMapping

/-!
# Mapping a batch to shards

`PointsWriter.MapShards`: the first loop asks the metadata client for a group for every point
in the retention window that the list does not cover yet; the second maps every point whose
time `ShardGroupAt` finds. Retention is pruned at the grain of groups, and when no obtained
group lies strictly inside another, every point in the window is mapped exactly once.
-/

namespace InfluxCloud.Cluster

open scoped List

/-- `meta.RetentionPolicyInfo`, with the field `MapShards` reads. -/
structure RetentionPolicyInfo where
  name : String
  duration : Int
  deriving DecidableEq, Repr

/-- `meta.DatabaseInfo`, with the field `WritePoints` reads. -/
structure DatabaseInfo where
  defaultRetentionPolicy : String
  deriving DecidableEq, Repr

/-- `PointsWriter.MetaClient` over the client's own state; creating a shard group may
change it. -/
structure MetaClient (σ : Type) where
  database : σ → String → Option DatabaseInfo
  retentionPolicy : σ → String → String → Except Error (Option RetentionPolicyInfo)
  createShardGroup : σ → String → String → Int → Except Error (Option ShardGroupInfo) × σ

/-- `WritePointsRequest`. -/
structure WritePointsRequest where
  database : String
  retentionPolicy : String
  points : List Point
  deriving DecidableEq, Repr

/-- Modelled from the spec: `models.MinNanoTime`, the minimum representable timestamp. -/
def minNanoTime : Int := -9223372036854775808

/-- `min` of `MapShards`: `now - rp.Duration` for a finite duration. -/
def minTime (now : Int) (rp : RetentionPolicyInfo) : Int :=
  if 0 < rp.duration then now - rp.duration else minNanoTime

variable {σ : Type} (mc : MetaClient σ)

/-- The first loop of `MapShards`: a group is created for each point inside the window that
no listed group covers yet. -/
def createShardGroups (srt : GroupSort) (db rp : String) (min : Int) :
    List Point → List ShardGroupInfo → σ → Except Error (List ShardGroupInfo) × σ
  | [], list, s => (.ok list, s)
  | p :: ps, list, s =>
    if p.time < min ∨ sgList.covers list p.time = true then
      createShardGroups srt db rp min ps list s
    else
      match mc.createShardGroup s db rp p.time with
      | (.error e, s') => (.error e, s')
      | (.ok none, s') => (.error (.msg "nil shard group"), s')
      | (.ok (some sg), s') => createShardGroups srt db rp min ps (sgList.append srt list sg) s'

/-- The `MapPoint` calls of the second loop: a point whose time no listed group covers is
skipped. -/
def shardCalls (shardFor : ShardGroupInfo → UInt64 → ShardInfo) (list : List ShardGroupInfo)
    (points : List Point) : List (ShardInfo × Point) :=
  points.filterMap fun p =>
    (sgList.shardGroupAt list p.time).map fun sg => (shardFor sg p.hashID, p)

/-- `PointsWriter.MapShards`, with `time.Now()` as `now` and `ShardGroupInfo.ShardFor`, which
is not under src/, as `shardFor`. -/
def mapShards (gr : Growth) (srt : GroupSort) (shardFor : ShardGroupInfo → UInt64 → ShardInfo)
    (now : Int) (wp : WritePointsRequest) (s : σ) : Except Error ShardMapping × σ :=
  match mc.retentionPolicy s wp.database wp.retentionPolicy with
  | .error e => (.error e, s)
  | .ok none => (.error (.retentionPolicyNotFound wp.retentionPolicy), s)
  | .ok (some rp) =>
    match createShardGroups mc srt wp.database wp.retentionPolicy (minTime now rp) wp.points [] s with
    | (.error e, s') => (.error e, s')
    | (.ok list, s') =>
      (.ok ((newShardMapping wp.points.length).mapAll gr (shardCalls shardFor list wp.points)), s')

variable (shardFor : ShardGroupInfo → UInt64 → ShardInfo)

lemma mapShards_eq_ok {gr : Growth} {srt : GroupSort} {now : Int} {wp : WritePointsRequest}
    {s s' : σ} {m : ShardMapping} (hm : mapShards mc gr srt shardFor now wp s = (.ok m, s')) :
    ∃ rp list, mc.retentionPolicy s wp.database wp.retentionPolicy = .ok (some rp) ∧
      createShardGroups mc srt wp.database wp.retentionPolicy (minTime now rp) wp.points [] s =
        (.ok list, s') ∧
      m = (newShardMapping wp.points.length).mapAll gr (shardCalls shardFor list wp.points) := by
  unfold mapShards at hm
  rcases hrp : mc.retentionPolicy s wp.database wp.retentionPolicy with e | (_ | rp) <;>
    simp only [hrp] at hm
  · cases hm
  · cases hm
  · rcases hlist : createShardGroups mc srt wp.database wp.retentionPolicy (minTime now rp)
      wp.points [] s with ⟨e | list, s''⟩ <;> simp only [hlist] at hm
    · cases hm
    · cases hm
      exact ⟨rp, list, rfl, hlist, rfl⟩

/-- A metadata client with one retention policy, of duration `10`, whose only shard group is
`[80, 100)`; it answers with that group for every time inside it. -/
def windowMeta : MetaClient Unit where
  database _ _ := none
  retentionPolicy _ _ _ := .ok (some ⟨"rp", 10⟩)
  createShardGroup _ _ _ t :=
    (if 80 ≤ t ∧ t < 100 then .ok (some ⟨1, 80, 100, [⟨7, [⟨1⟩]⟩]⟩) else .error (.msg "no group"), ())

/-- A growth policy that doubles the capacity, or fits the length if that is more. -/
def doubling : Growth := ⟨fun c n => max (2 * c) n, fun _ _ => le_max_right _ _⟩

end InfluxCloud.Cluster
