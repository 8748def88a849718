import Mathlib.Data.List.Infix

/-!
# The cluster writer's data model

Points, shard owners, shards and shard groups as the `cluster` package reads them from
`models` and `meta`, the error values it returns and compares, and the TSDB store it
writes through. Times are nanoseconds since the epoch; identifiers keep their `uint64`.
-/

namespace InfluxCloud.Cluster

/-- A point as the writer reads it: `Time()` in nanoseconds and `HashID()`. -/
structure Point where
  time : Int
  hashID : UInt64
  deriving DecidableEq, Repr

/-- `meta.ShardOwner`: the node holding one replica. -/
structure ShardOwner where
  nodeID : UInt64
  deriving DecidableEq, Repr

/-- `meta.ShardInfo`: a shard and its replica placements. -/
structure ShardInfo where
  id : UInt64
  owners : List ShardOwner
  deriving DecidableEq, Repr

/-- `meta.ShardGroupInfo`: the shards of one time range `[startTime, endTime)`. -/
structure ShardGroupInfo where
  id : UInt64
  startTime : Int
  endTime : Int
  shards : List ShardInfo
  deriving DecidableEq, Repr

/-- The group's half-open interval contains `t`. -/
def ShardGroupInfo.Contains (g : ShardGroupInfo) (t : Int) : Prop :=
  g.startTime ≤ t ∧ t < g.endTime

instance (g : ShardGroupInfo) (t : Int) : Decidable (g.Contains t) :=
  inferInstanceAs (Decidable (_ ∧ _))

/-- Modelled from the spec: `meta.ShardGroupInfos.Less`, which orders groups by end time
and then by start time. -/
def ShardGroupInfo.Less (a b : ShardGroupInfo) : Prop :=
  if a.endTime = b.endTime then a.startTime < b.startTime else a.endTime < b.endTime

/-- `a` may stand before `b` in a list that `sort.Sort` ordered by `Less`. -/
def ShardGroupInfo.Le (a b : ShardGroupInfo) : Prop := ¬ b.Less a

instance (a b : ShardGroupInfo) : Decidable (a.Le b) :=
  inferInstanceAs (Decidable (¬ ite _ _ _))

lemma ShardGroupInfo.le_iff {a b : ShardGroupInfo} :
    a.Le b ↔ a.endTime < b.endTime ∨ a.endTime = b.endTime ∧ a.startTime ≤ b.startTime := by
  unfold ShardGroupInfo.Le ShardGroupInfo.Less
  split <;> omega

instance : IsTotal ShardGroupInfo ShardGroupInfo.Le :=
  ⟨fun a b => by rw [ShardGroupInfo.le_iff, ShardGroupInfo.le_iff]; omega⟩

instance : IsTrans ShardGroupInfo ShardGroupInfo.Le :=
  ⟨fun a b c => by rw [ShardGroupInfo.le_iff, ShardGroupInfo.le_iff, ShardGroupInfo.le_iff]; omega⟩

/-- Error values of the package and of the collaborators it compares against. `msg` is
any other error, known by its text (`errors.New`, `fmt.Errorf`). -/
inductive Error where
  | timeout
  | partialWrite
  | writeFailed
  | shardNotFound
  | databaseNotFound (name : String)
  | retentionPolicyNotFound (name : String)
  | msg (text : String)
  deriving DecidableEq, Repr

/-- `err.Error()`. The texts of the errors of `tsdb` and `influxcloud` are not under src/;
no result depends on them beyond `isRetryable`'s test. -/
def Error.error : Error → String
  | .timeout => "timeout"
  | .partialWrite => "partial write"
  | .writeFailed => "write failed"
  | .shardNotFound => "shard not found"
  | .databaseNotFound name => "database not found: " ++ name
  | .retentionPolicyNotFound name => "retention policy not found: " ++ name
  | .msg text => text

/-- `strings.Contains(s, substr)`. -/
def containsStr (s substr : String) : Bool := decide (substr.toList <:+: s.toList)

/-- The TSDB store as the writer and the service call it, over the store's own state. -/
structure TSDBStore (σ : Type) where
  createShard : σ → String → String → UInt64 → Bool → Option Error × σ
  writeToShard : σ → UInt64 → List Point → Option Error × σ

end InfluxCloud.Cluster
