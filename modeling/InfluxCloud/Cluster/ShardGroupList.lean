import InfluxCloud.Cluster.Basic
import Mathlib.Data.List.Sort

/-!
# The shard-group list

`sgList` of `points_writer.go`: the groups a batch needs, kept sorted by `Append`, and
`ShardGroupAt`, a binary search (`sort.Search`) for the first group ending after `t`.
Whenever it returns a group, that group contains `t` and is least in the list's order
among the groups containing `t`. It finds every time some group contains only when no
group lies strictly inside another; a nested pair makes it miss the outer group.
-/

namespace InfluxCloud.Cluster

open scoped List

/-! ### `sort.Search` -/

/-- The loop of Go's `sort.Search` over `[i, j)`: `h := (i + j) / 2`, then `j = h` when
`f(h)` holds and `i = h + 1` when it does not. -/
def searchLoop (f : Nat → Bool) (i j : Nat) : Nat :=
  if i < j then
    if f ((i + j) / 2) then searchLoop f i ((i + j) / 2) else searchLoop f ((i + j) / 2 + 1) j
  else i
termination_by j - i

/-- `sort.Search(n, f)`. -/
def sortSearch (n : Nat) (f : Nat → Bool) : Nat := searchLoop f 0 n

lemma searchLoop_spec (f : Nat → Bool) {i j : Nat} (hij : i ≤ j) :
    i ≤ searchLoop f i j ∧ searchLoop f i j ≤ j ∧
      (searchLoop f i j = j ∨ f (searchLoop f i j) = true) := by
  induction i, j using searchLoop.induct f with
  | case1 i j hlt hf ih =>
    rw [searchLoop, if_pos hlt, if_pos hf]
    obtain ⟨h1, h2, h3 | h3⟩ := ih (by omega)
    · exact ⟨h1, by omega, .inr (by rw [h3]; exact hf)⟩
    · exact ⟨h1, by omega, .inr h3⟩
  | case2 i j hlt hf ih =>
    rw [searchLoop, if_pos hlt, if_neg hf]
    obtain ⟨h1, h2, h3⟩ := ih (by omega)
    exact ⟨by omega, h2, h3⟩
  | case3 i j hge =>
    rw [searchLoop, if_neg hge]
    exact ⟨le_rfl, hij, .inl (by omega)⟩

lemma searchLoop_false (f : Nat → Bool) (hmono : ∀ a b, a ≤ b → f a = true → f b = true)
    {i j : Nat} (k : Nat) (hik : i ≤ k) (hk : k < searchLoop f i j) : f k = false := by
  induction i, j using searchLoop.induct f with
  | case1 i j hlt hf ih =>
    rw [searchLoop, if_pos hlt, if_pos hf] at hk
    exact ih hik hk
  | case2 i j hlt hf ih =>
    rw [searchLoop, if_pos hlt, if_neg hf] at hk
    by_cases hkh : (i + j) / 2 + 1 ≤ k
    · exact ih hkh hk
    · exact Bool.eq_false_iff.mpr fun h => hf (hmono k _ (by omega) h)
  | case3 i j hge =>
    rw [searchLoop, if_neg hge] at hk
    omega

lemma sortSearch_le (n : Nat) (f : Nat → Bool) : sortSearch n f ≤ n :=
  (searchLoop_spec f (Nat.zero_le n)).2.1

lemma sortSearch_true (n : Nat) (f : Nat → Bool) (h : sortSearch n f < n) :
    f (sortSearch n f) = true :=
  (searchLoop_spec f (Nat.zero_le n)).2.2.resolve_left (by unfold sortSearch at h; omega)

lemma sortSearch_false (n : Nat) (f : Nat → Bool)
    (hmono : ∀ a b, a ≤ b → f a = true → f b = true) {k : Nat} (hk : k < sortSearch n f) :
    f k = false :=
  searchLoop_false f hmono k (Nat.zero_le k) hk

/-! ### `ShardGroupAt`, `Covers` and `Append` -/

/-- `l[i].EndTime.After(t)`; indices past the end count as true, as `sort.Search`
takes them. -/
def endsAfter (l : List ShardGroupInfo) (t : Int) (i : Nat) : Bool :=
  match l[i]? with
  | some g => decide (t < g.endTime)
  | none => true

/-- `sgList.ShardGroupAt`: the first group ending after `t`, unless `t` is before its
start. -/
def sgList.shardGroupAt (l : List ShardGroupInfo) (t : Int) : Option ShardGroupInfo :=
  match l[sortSearch l.length (endsAfter l t)]? with
  | none => none
  | some g => if t < g.startTime then none else some g

/-- `sgList.Covers`. -/
def sgList.covers (l : List ShardGroupInfo) (t : Int) : Bool :=
  if l.length = 0 then false else (sgList.shardGroupAt l t).isSome

/-- `sort.Sort` on groups by `ShardGroupInfos.Less`: some permutation sorted by `Le`. Go's
sort is not stable, so the order among groups equal in (end, start) is left open. -/
structure GroupSort where
  sort : List ShardGroupInfo → List ShardGroupInfo
  perm : ∀ l, sort l ~ l
  sorted : ∀ l, (sort l).Sorted ShardGroupInfo.Le

/-- Insertion sort by `Le`, one of the sorts `sort.Sort` may act as. -/
def insertionGroupSort : GroupSort :=
  ⟨fun l => l.insertionSort ShardGroupInfo.Le, fun l => List.perm_insertionSort _ l,
    fun l => List.sorted_insertionSort _ l⟩

/-- `sgList.Append`: `append`, then `sort.Sort` by `ShardGroupInfos.Less`. -/
def sgList.append (srt : GroupSort) (l : List ShardGroupInfo) (g : ShardGroupInfo) :
    List ShardGroupInfo :=
  srt.sort (l ++ [g])

/-- One group lies strictly inside another: it starts later and ends earlier. -/
def Nested (outer inner : ShardGroupInfo) : Prop :=
  outer.startTime < inner.startTime ∧ inner.endTime < outer.endTime

/-- No group of the list lies strictly inside another. -/
def NoNesting (l : List ShardGroupInfo) : Prop := ∀ a ∈ l, ∀ b ∈ l, ¬ Nested a b

@[simp] lemma sgList.mem_append {srt : GroupSort} {l : List ShardGroupInfo}
    {g x : ShardGroupInfo} : x ∈ sgList.append srt l g ↔ x ∈ l ∨ x = g := by
  simp [sgList.append, (srt.perm _).mem_iff]

lemma sgList.sorted_append (srt : GroupSort) (l : List ShardGroupInfo) (g : ShardGroupInfo) :
    (sgList.append srt l g).Sorted ShardGroupInfo.Le :=
  srt.sorted _

@[simp] lemma GroupSort.sort_singleton (srt : GroupSort) (g : ShardGroupInfo) :
    srt.sort [g] = [g] :=
  List.perm_singleton.mp (srt.perm [g])

lemma GroupSort.sort_pair (srt : GroupSort) {a b : ShardGroupInfo} (h : a.Less b) :
    srt.sort [a, b] = [a, b] := by
  have hp := srt.perm [a, b]
  have hs := srt.sorted [a, b]
  obtain ⟨x, y, hxy⟩ := List.length_eq_two.mp hp.length_eq
  rw [hxy] at hp hs ⊢
  rcases List.mem_pair.mp (hp.subset (List.mem_cons_self x [y])) with rfl | rfl
  · rw [List.perm_singleton.mp ((List.perm_cons x).mp hp)]
  · obtain rfl : y = a := List.singleton_inj.mp
      (List.perm_singleton.mp ((List.perm_cons x).mp (hp.trans (List.Perm.swap x a []))))
    exact absurd h (List.rel_of_sorted_cons hs y (List.mem_singleton_self y))

lemma sorted_getElem_le {l : List ShardGroupInfo} (hs : l.Sorted ShardGroupInfo.Le) {a b : Nat}
    (ha : a < l.length) (hb : b < l.length) (hab : a ≤ b) : l[a].Le l[b] := by
  rcases Nat.lt_or_eq_of_le hab with h | rfl
  · exact List.pairwise_iff_getElem.mp hs a b ha hb h
  · exact ShardGroupInfo.le_iff.mpr (.inr ⟨rfl, le_rfl⟩)

lemma endsAfter_mono {l : List ShardGroupInfo} (hs : l.Sorted ShardGroupInfo.Le) (t : Int) :
    ∀ a b, a ≤ b → endsAfter l t a = true → endsAfter l t b = true := by
  intro a b hab ha
  unfold endsAfter at ha ⊢
  cases hb : l[b]? with
  | none => rfl
  | some gb =>
    obtain ⟨hb', rfl⟩ := List.getElem?_eq_some_iff.mp hb
    have hal : a < l.length := by omega
    rw [List.getElem?_eq_getElem hal] at ha
    have := ShardGroupInfo.le_iff.mp (sorted_getElem_le hs hal hb' hab)
    simp only [decide_eq_true_eq] at ha ⊢
    omega

lemma shardGroupAt_eq_some {l : List ShardGroupInfo} {t : Int} {g : ShardGroupInfo}
    (h : sgList.shardGroupAt l t = some g) :
    ∃ r, r = sortSearch l.length (endsAfter l t) ∧ l[r]? = some g ∧ g.Contains t := by
  unfold sgList.shardGroupAt at h
  split at h
  · cases h
  · rename_i g' hg'
    split at h
    · cases h
    · cases h
      have hr := (List.getElem?_eq_some_iff.mp hg').1
      have hf := sortSearch_true _ _ hr
      simp only [endsAfter, hg', decide_eq_true_eq] at hf
      exact ⟨_, rfl, hg', by omega, hf⟩

/-- Whatever the list, a group `ShardGroupAt` returns is one of the list's and contains
`t`. -/
theorem shardGroupAt_sound {l : List ShardGroupInfo} {t : Int} {g : ShardGroupInfo}
    (h : sgList.shardGroupAt l t = some g) : g ∈ l ∧ g.Contains t := by
  obtain ⟨r, -, hr, hc⟩ := shardGroupAt_eq_some h
  exact ⟨List.getElem?_mem hr, hc⟩

lemma sortSearch_le_of_endsAfter {l : List ShardGroupInfo} (hs : l.Sorted ShardGroupInfo.Le)
    {t : Int} {k : Nat} (hk : k < l.length) (hend : t < l[k].endTime) :
    sortSearch l.length (endsAfter l t) ≤ k := by
  by_contra hlt
  have := sortSearch_false _ _ (endsAfter_mono hs t) (Nat.lt_of_not_le hlt)
  simp [endsAfter, List.getElem?_eq_getElem hk, hend] at this

/-- On a sorted list, a group `ShardGroupAt` returns is least, in the list's order, among
the groups that contain `t`. -/
theorem shardGroupAt_least {l : List ShardGroupInfo} (hs : l.Sorted ShardGroupInfo.Le)
    {t : Int} {g : ShardGroupInfo} (h : sgList.shardGroupAt l t = some g) :
    ∀ h' ∈ l, h'.Contains t → g.Le h' := by
  intro h' hmem hc
  obtain ⟨r, rfl, hr, -⟩ := shardGroupAt_eq_some h
  obtain ⟨k, hk, rfl⟩ := List.getElem_of_mem hmem
  obtain ⟨hrl, rfl⟩ := List.getElem?_eq_some_iff.mp hr
  exact sorted_getElem_le hs hrl hk (sortSearch_le_of_endsAfter hs hk hc.2)

/-- On a sorted list with no nested groups, `ShardGroupAt` finds a group for every time
some group contains. -/
theorem shardGroupAt_complete {l : List ShardGroupInfo} (hs : l.Sorted ShardGroupInfo.Le)
    (hn : NoNesting l) {t : Int} {h' : ShardGroupInfo} (hmem : h' ∈ l) (hc : h'.Contains t) :
    (sgList.shardGroupAt l t).isSome := by
  obtain ⟨k, hk, rfl⟩ := List.getElem_of_mem hmem
  obtain ⟨hc1, hc2⟩ := hc
  have hrk := sortSearch_le_of_endsAfter hs hk hc2
  set r := sortSearch l.length (endsAfter l t) with hr
  have hrl : r < l.length := by omega
  have hle : l[r].Le l[k] := sorted_getElem_le hs hrl hk hrk
  have hstart : l[r].startTime ≤ t := by
    by_contra hlt
    have hno := hn _ hmem _ (List.getElem_mem hrl)
    have := ShardGroupInfo.le_iff.mp hle
    exact hno ⟨by omega, by omega⟩
  simp [sgList.shardGroupAt, ← hr, List.getElem?_eq_getElem hrl, not_lt.mpr hstart]

/-- `ShardGroupAt` on a list sorted as `Append` keeps it: a group it finds lies in the list,
contains `t`, and comes first among the groups containing `t` in the order on (end, start).
When no group lies strictly inside another, it finds nothing exactly when no group contains
`t`. -/
theorem shardGroupAt_spec {l : List ShardGroupInfo} (hs : l.Sorted ShardGroupInfo.Le) (t : Int) :
    (∀ g, sgList.shardGroupAt l t = some g →
      g ∈ l ∧ g.Contains t ∧ ∀ h ∈ l, h.Contains t → g.Le h) ∧
    (NoNesting l → (sgList.shardGroupAt l t = none ↔ ∀ g ∈ l, ¬ g.Contains t)) := by
  refine ⟨fun g hg => ⟨(shardGroupAt_sound hg).1, (shardGroupAt_sound hg).2,
    shardGroupAt_least hs hg⟩, fun hn => ⟨fun hnone g hg hc => ?_, fun hall => ?_⟩⟩
  · simpa [hnone] using shardGroupAt_complete hs hn hg hc
  · cases h : sgList.shardGroupAt l t with
    | none => rfl
    | some g => exact absurd (shardGroupAt_sound h).2 (hall g (shardGroupAt_sound h).1)

/-- The one group `[0, 10)` is found for time 5, and it is the first group containing 5. -/
theorem shardGroupAt_spec_one_group :
    (sgList.append insertionGroupSort [] ⟨1, 0, 10, []⟩).Sorted ShardGroupInfo.Le ∧
    ((⟨1, 0, 10, []⟩ : ShardGroupInfo) ∈ sgList.append insertionGroupSort [] ⟨1, 0, 10, []⟩ ∧
      (⟨1, 0, 10, []⟩ : ShardGroupInfo).Contains 5 ∧
      ∀ h ∈ sgList.append insertionGroupSort [] ⟨1, 0, 10, []⟩, h.Contains 5 →
        (⟨1, 0, 10, []⟩ : ShardGroupInfo).Le h) := by
  have hfound : sgList.shardGroupAt (sgList.append insertionGroupSort [] ⟨1, 0, 10, []⟩) 5 =
      some ⟨1, 0, 10, []⟩ := by
    simp [sgList.append, sgList.shardGroupAt, sortSearch, searchLoop, endsAfter]
  exact ⟨sgList.sorted_append _ _ _,
    (shardGroupAt_spec (sgList.sorted_append insertionGroupSort [] ⟨1, 0, 10, []⟩) 5).1 _ hfound⟩

/-- A nested pair defeats the search: whatever order `sort.Sort` leaves, the list `Append` builds
from `[4, 6)` and `[0, 10)` is `[[4, 6), [0, 10)]`, the search for `3` stops at `[4, 6)`, and
`ShardGroupAt` and `Covers` miss `[0, 10)`, which contains `3`. -/
theorem shardGroupAt_misses_enclosing_group (srt : GroupSort) :
    (⟨2, 0, 10, []⟩ : ShardGroupInfo) ∈
        sgList.append srt (sgList.append srt [] ⟨1, 4, 6, []⟩) ⟨2, 0, 10, []⟩ ∧
      (⟨2, 0, 10, []⟩ : ShardGroupInfo).Contains 3 ∧
      sgList.shardGroupAt (sgList.append srt (sgList.append srt [] ⟨1, 4, 6, []⟩) ⟨2, 0, 10, []⟩) 3 =
        none ∧
      sgList.covers (sgList.append srt (sgList.append srt [] ⟨1, 4, 6, []⟩) ⟨2, 0, 10, []⟩) 3 =
        false := by
  have hl : sgList.append srt (sgList.append srt [] ⟨1, 4, 6, []⟩) ⟨2, 0, 10, []⟩ =
      [⟨1, 4, 6, []⟩, ⟨2, 0, 10, []⟩] := by
    rw [sgList.append, sgList.append, List.nil_append, srt.sort_singleton, List.singleton_append,
      srt.sort_pair (by simp [ShardGroupInfo.Less])]
  rw [hl]
  simp [sgList.shardGroupAt, sgList.covers, sortSearch, searchLoop, endsAfter,
    ShardGroupInfo.Contains]

end InfluxCloud.Cluster
