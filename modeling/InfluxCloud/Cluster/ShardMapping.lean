import InfluxCloud.Cluster.Basic
import Mathlib.Data.List.AList

/-!
# Shard mappings

`ShardMapping` buckets a batch's points by destination shard. Slices carry their capacity,
since `MapPoint` replaces a bucket whose capacity is below the batch size `n`. How much
`append` grows a full slice is the runtime's choice; the language only promises that the
new backing array fits, and that is all the results below use. The key invariant: a bucket
with capacity below `n` is empty, so the replacement never discards a mapped point.
-/

namespace InfluxCloud.Cluster

open scoped List

/-- A Go slice: its elements and the capacity of its backing array. -/
structure Slice (α : Type) where
  elems : List α
  cap : Nat
  len_le_cap : elems.length ≤ cap

/-- The nil slice: `Points[id]` for an id not in the map. -/
def Slice.nil {α : Type} : Slice α := ⟨[], 0, le_rfl⟩

/-- `make([]T, 0, n)`. -/
def Slice.make {α : Type} (n : Nat) : Slice α := ⟨[], n, Nat.zero_le n⟩

@[simp] lemma Slice.make_cap {α : Type} (n : Nat) : (Slice.make n : Slice α).cap = n := rfl

/-- The capacity `append` gives a new backing array, from the old capacity and the length
needed: the runtime's `growslice`, of which the language promises only that it fits. -/
structure Growth where
  newCap : Nat → Nat → Nat
  fits : ∀ c n, n ≤ newCap c n

/-- `append(s, x)`: in place while there is room, into a new backing array otherwise. -/
def Slice.append {α : Type} (gr : Growth) (s : Slice α) (x : α) : Slice α :=
  if h : s.elems.length < s.cap then ⟨s.elems ++ [x], s.cap, by simpa using h⟩
  else ⟨s.elems ++ [x], gr.newCap s.cap (s.elems.length + 1), by simpa using gr.fits _ _⟩

@[simp] lemma Slice.append_elems {α : Type} (gr : Growth) (s : Slice α) (x : α) :
    (s.append gr x).elems = s.elems ++ [x] := by
  unfold Slice.append; split <;> rfl

lemma Slice.cap_le_append {α : Type} (gr : Growth) (s : Slice α) (x : α) :
    s.cap ≤ (s.append gr x).cap := by
  unfold Slice.append
  split
  · exact le_rfl
  · have := gr.fits s.cap (s.elems.length + 1)
    have := s.len_le_cap
    dsimp only
    omega

/-- `ShardMapping`: the batch size `n`, each shard's points and each shard's info. -/
structure ShardMapping where
  n : Nat
  points : AList (fun _ : UInt64 => Slice Point)
  shards : AList (fun _ : UInt64 => ShardInfo)

/-- `NewShardMapping(n)`. -/
def newShardMapping (n : Nat) : ShardMapping := ⟨n, ∅, ∅⟩

/-- `s.Points[id]`, the nil slice for an absent id. -/
def ShardMapping.bucket (m : ShardMapping) (id : UInt64) : Slice Point :=
  (m.points.lookup id).getD Slice.nil

/-- `ShardMapping.MapPoint`. -/
def ShardMapping.mapPoint (gr : Growth) (m : ShardMapping) (si : ShardInfo) (p : Point) :
    ShardMapping :=
  let b := if (m.bucket si.id).cap < m.n then Slice.make m.n else m.bucket si.id
  { m with points := m.points.insert si.id (b.append gr p), shards := m.shards.insert si.id si }

/-- `MapPoint` called on each `(shardInfo, point)` in turn. -/
def ShardMapping.mapAll (gr : Growth) (m : ShardMapping) (calls : List (ShardInfo × Point)) :
    ShardMapping :=
  calls.foldl (fun m c => m.mapPoint gr c.1 c.2) m

/-- A bucket whose capacity is below `n` holds nothing. -/
def ShardMapping.Fits (m : ShardMapping) : Prop :=
  ∀ s, (m.bucket s).cap < m.n → (m.bucket s).elems = []

variable (gr : Growth)

@[simp] lemma ShardMapping.mapPoint_n (m : ShardMapping) (si : ShardInfo) (p : Point) :
    (m.mapPoint gr si p).n = m.n := rfl

lemma ShardMapping.bucket_mapPoint_ne {m : ShardMapping} {si : ShardInfo} {p : Point} {s : UInt64}
    (h : s ≠ si.id) : (m.mapPoint gr si p).bucket s = m.bucket s := by
  simp [ShardMapping.bucket, ShardMapping.mapPoint, AList.lookup_insert_ne h]

lemma ShardMapping.bucket_mapPoint_self (m : ShardMapping) (si : ShardInfo) (p : Point) :
    (m.mapPoint gr si p).bucket si.id =
      (if (m.bucket si.id).cap < m.n then Slice.make m.n else m.bucket si.id).append gr p := by
  simp [ShardMapping.bucket, ShardMapping.mapPoint]

lemma ShardMapping.mapPoint_elems_self {m : ShardMapping} (hf : m.Fits) (si : ShardInfo)
    (p : Point) : ((m.mapPoint gr si p).bucket si.id).elems = (m.bucket si.id).elems ++ [p] := by
  rw [ShardMapping.bucket_mapPoint_self]
  split
  · rename_i h
    simp [Slice.make, hf _ h]
  · simp

lemma ShardMapping.mapPoint_fits {m : ShardMapping} (hf : m.Fits) (si : ShardInfo) (p : Point) :
    (m.mapPoint gr si p).Fits := by
  intro s hs
  by_cases h : s = si.id
  · subst h
    exfalso
    rw [ShardMapping.bucket_mapPoint_self, ShardMapping.mapPoint_n] at hs
    by_cases hc : (m.bucket si.id).cap < m.n
    · rw [if_pos hc] at hs
      have := Slice.cap_le_append gr (Slice.make (α := Point) m.n) p
      rw [Slice.make_cap] at this
      omega
    · rw [if_neg hc] at hs
      have := Slice.cap_le_append gr (m.bucket si.id) p
      omega
  · rw [ShardMapping.bucket_mapPoint_ne gr h] at hs ⊢
    exact hf s hs

lemma ShardMapping.mem_points_mapPoint {m : ShardMapping} {si : ShardInfo} {p : Point}
    {s : UInt64} : s ∈ (m.mapPoint gr si p).points ↔ s = si.id ∨ s ∈ m.points :=
  AList.mem_insert _

lemma ShardMapping.mem_shards_mapPoint {m : ShardMapping} {si : ShardInfo} {p : Point}
    {s : UInt64} : s ∈ (m.mapPoint gr si p).shards ↔ s = si.id ∨ s ∈ m.shards :=
  AList.mem_insert _

@[simp] lemma ShardMapping.mapAll_cons (m : ShardMapping) (c : ShardInfo × Point)
    (calls : List (ShardInfo × Point)) :
    m.mapAll gr (c :: calls) = (m.mapPoint gr c.1 c.2).mapAll gr calls := rfl

@[simp] lemma ShardMapping.mapAll_n (m : ShardMapping) (calls : List (ShardInfo × Point)) :
    (m.mapAll gr calls).n = m.n := by
  induction calls generalizing m with
  | nil => rfl
  | cons c calls ih => exact ih _

lemma ShardMapping.mapAll_fits {m : ShardMapping} (hf : m.Fits) (calls : List (ShardInfo × Point)) :
    (m.mapAll gr calls).Fits := by
  induction calls generalizing m with
  | nil => exact hf
  | cons c calls ih => exact ih (ShardMapping.mapPoint_fits gr hf c.1 c.2)

lemma ShardMapping.mapAll_elems {m : ShardMapping} (hf : m.Fits) (calls : List (ShardInfo × Point))
    (s : UInt64) : ((m.mapAll gr calls).bucket s).elems =
      (m.bucket s).elems ++ (calls.filter (fun c => c.1.id = s)).map Prod.snd := by
  induction calls generalizing m with
  | nil => simp [ShardMapping.mapAll]
  | cons c calls ih =>
    rw [ShardMapping.mapAll_cons, ih (ShardMapping.mapPoint_fits gr hf c.1 c.2)]
    by_cases h : c.1.id = s
    · subst h
      simp [ShardMapping.mapPoint_elems_self gr hf]
    · simp [ShardMapping.bucket_mapPoint_ne gr (Ne.symm h), h]

lemma ShardMapping.mapAll_shards (m : ShardMapping) (calls : List (ShardInfo × Point))
    (s : UInt64) : (m.mapAll gr calls).shards.lookup s =
      (((calls.filter (fun c => c.1.id = s)).map Prod.fst).getLast?).or (m.shards.lookup s) := by
  induction calls generalizing m with
  | nil => simp [ShardMapping.mapAll]
  | cons c calls ih =>
    rw [ShardMapping.mapAll_cons, ih]
    by_cases h : c.1.id = s
    · subst h
      rw [List.filter_cons_of_pos (by simp), List.map_cons, List.getLast?_cons]
      simp only [ShardMapping.mapPoint, AList.lookup_insert]
      cases ((calls.filter fun c' => c'.1.id = c.1.id).map Prod.fst).getLast? <;> rfl
    · rw [List.filter_cons_of_neg (by simpa using h)]
      simp [ShardMapping.mapPoint, AList.lookup_insert_ne (Ne.symm h)]

lemma ShardMapping.mapAll_keys (m : ShardMapping) (hk : ∀ s, s ∈ m.points ↔ s ∈ m.shards)
    (calls : List (ShardInfo × Point)) :
    ∀ s, s ∈ (m.mapAll gr calls).points ↔ s ∈ (m.mapAll gr calls).shards := by
  induction calls generalizing m with
  | nil => exact hk
  | cons c calls ih =>
    refine ih _ fun s => ?_
    rw [ShardMapping.mem_points_mapPoint, ShardMapping.mem_shards_mapPoint, hk]

lemma ShardMapping.mapAll_shard_id (n : Nat) (calls : List (ShardInfo × Point)) {id : UInt64}
    {si : ShardInfo} (h : ((newShardMapping n).mapAll gr calls).shards.lookup id = some si) :
    si.id = id := by
  rw [ShardMapping.mapAll_shards] at h
  simp only [newShardMapping, AList.lookup_empty, Option.or_none] at h
  obtain ⟨c, hc, rfl⟩ := List.mem_map.mp (List.mem_of_getLast?_eq_some h)
  simpa using (List.mem_filter.mp hc).2

lemma newShardMapping_fits (n : Nat) : (newShardMapping n).Fits :=
  fun _ _ => rfl

@[simp] lemma newShardMapping_bucket (n : Nat) (s : UInt64) :
    (newShardMapping n).bucket s = Slice.nil := rfl

/-- Any sequence of `MapPoint` calls on `NewShardMapping(n)`, of any length: every bucket
holds exactly the points mapped to its shard, in call order, because the branch that
replaces a bucket of capacity below `n` only ever meets an empty one. `Shards` keeps the
last info given for each id, and `Points` and `Shards` have the same keys. -/
theorem mapPoint_keeps_every_point (n : Nat) (calls : List (ShardInfo × Point)) :
    (∀ s, (((newShardMapping n).mapAll gr calls).bucket s).elems =
      (calls.filter (fun c => c.1.id = s)).map Prod.snd) ∧
    (∀ k (hk : k < calls.length),
      (((newShardMapping n).mapAll gr (calls.take k)).bucket calls[k].1.id).cap < n →
        (((newShardMapping n).mapAll gr (calls.take k)).bucket calls[k].1.id).elems = []) ∧
    (∀ s, ((newShardMapping n).mapAll gr calls).shards.lookup s =
      ((calls.filter (fun c => c.1.id = s)).map Prod.fst).getLast?) ∧
    (∀ s, s ∈ ((newShardMapping n).mapAll gr calls).points ↔
      s ∈ ((newShardMapping n).mapAll gr calls).shards) := by
  refine ⟨fun s => ?_, fun k _ => ?_, fun s => ?_, ?_⟩
  · simp [ShardMapping.mapAll_elems gr (newShardMapping_fits n), Slice.nil]
  · intro h
    exact ShardMapping.mapAll_fits gr (newShardMapping_fits n) _ _ (by simpa [newShardMapping] using h)
  · simp [ShardMapping.mapAll_shards, newShardMapping]
  · exact ShardMapping.mapAll_keys gr _ (fun _ => Iff.rfl) calls

end InfluxCloud.Cluster
