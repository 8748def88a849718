import InfluxCloud.Cluster.WritePoints

/-!
# The write path

`WritePoints` from the request to the `writeToShard` calls: the calls together carry every
mapped point once, each to the shard `ShardFor` picks in the group `ShardGroupAt` finds. When
each call is answered by a `writeToShard` run on its shard, level and points, `WritePoints`
returns only what `writeToShard` returns, and its nil means every bucket met the level.
-/

namespace InfluxCloud.Cluster

open scoped List

section Calls

variable {run : WritePointsRun} {s : WritePointsState}

end Calls

variable {σ : Type} (mc : MetaClient σ) (shardFor : ShardGroupInfo → UInt64 → ShardInfo)

lemma writePointsMapping_eq_ok {gr : Growth} {srt : GroupSort} {now : Int}
    {database retentionPolicy rp : String} {points : List Point} {s s' : σ} {m : ShardMapping}
    (hm : writePointsMapping mc gr srt shardFor now database retentionPolicy points s =
      (.ok (rp, m), s')) :
    resolveRetentionPolicy mc s database retentionPolicy = .ok rp ∧
      mapShards mc gr srt shardFor now ⟨database, rp, points⟩ s = (.ok m, s') := by
  unfold writePointsMapping at hm
  rcases hr : resolveRetentionPolicy mc s database retentionPolicy with e | rp' <;>
    simp only [hr] at hm
  · cases hm
  · rcases hmap : mapShards mc gr srt shardFor now ⟨database, rp', points⟩ s with ⟨e | m', s''⟩ <;>
      simp only [hmap] at hm
    · cases hm
    · cases hm
      exact ⟨rfl, hmap⟩

lemma window_batch_mapping : ∃ m, writePointsMapping windowMeta doubling insertionGroupSort
    (fun g _ => g.shards.headD ⟨0, []⟩) 100 "db" "rp" [⟨95, 0⟩, ⟨85, 0⟩] () = (.ok ("rp", m), ()) ∧
      m.points.keys = [7] := by
  have hg : ∀ t, 80 ≤ t → t < 100 → sgList.shardGroupAt [⟨1, 80, 100, [⟨7, [⟨1⟩]⟩]⟩] t =
      some ⟨1, 80, 100, [⟨7, [⟨1⟩]⟩]⟩ := fun t h1 h2 => by
    simp [sgList.shardGroupAt, sortSearch, searchLoop, endsAfter, h1, h2]
  exact ⟨_, rfl, by simp [windowMeta, minTime, createShardGroups, sgList.covers, sgList.append,
    shardCalls, hg, ShardMapping.mapPoint, ShardMapping.mapAll, newShardMapping, AList.keys]⟩

/-- `WritePoints` never passes a nil shard to `writeToShard`: for every metadata client and
under every interleaving, each call gets `shardMappings.Shards[k]` for its bucket `k`, and that
shard is non-nil, with id `k`. -/
theorem writePoints_calls_get_shard {gr : Growth} {srt : GroupSort} {now : Int}
    {database retentionPolicy rp : String} {points : List Point} {s s' : σ} {m : ShardMapping}
    (hm : writePointsMapping mc gr srt shardFor now database retentionPolicy points s =
      (.ok (rp, m), s'))
    {cl : ConsistencyLevel} {st : WritePointsState}
    (hs : WritePointsReachable ⟨database, rp, cl, m⟩ st) :
    ∀ c ∈ st.calls, c.shard = m.shards.lookup c.key ∧ ∃ si, c.shard = some si ∧ si.id = c.key := by
  intro c hc
  obtain ⟨hcall, hk⟩ := (hs.bucketsInv _).call_of_mem hc
  have hshard : c.shard = m.shards.lookup c.key := by rw [hcall]; rfl
  obtain ⟨-, hmap⟩ := writePointsMapping_eq_ok mc shardFor hm
  obtain ⟨rp', list, -, -, rfl⟩ := mapShards_eq_ok mc shardFor hmap
  have hmem := (ShardMapping.mapAll_keys gr _ (fun _ => Iff.rfl) _ c.key).mp hk
  obtain ⟨si, hsi⟩ := Option.isSome_iff_exists.mp (AList.lookup_isSome.mpr hmem)
  exact ⟨hshard, si, hshard.trans hsi, ShardMapping.mapAll_shard_id gr _ _ hsi⟩

/-- The window batch's one call gets shard 7. -/
theorem window_batch_call_gets_shard :
    ∃ m st, writePointsMapping windowMeta doubling insertionGroupSort
        (fun g _ => g.shards.headD ⟨0, []⟩) 100 "db" "rp" [⟨95, 0⟩, ⟨85, 0⟩] () =
          (.ok ("rp", m), ()) ∧
      WritePointsReachable ⟨"db", "rp", .one, m⟩ st ∧
      ∃ c ∈ st.calls, c.shard = m.shards.lookup c.key ∧ ∃ si, c.shard = some si ∧ si.id = c.key := by
  obtain ⟨m, hm, hkeys⟩ := window_batch_mapping
  have hk : (7 : UInt64) ∈ m.points.keys := by rw [hkeys]; exact List.mem_singleton_self 7
  have hs : WritePointsReachable ⟨"db", "rp", .one, m⟩ _ := .step .init (.call none hk rfl)
  exact ⟨m, _, hm, hs, _, List.mem_append_right _ (List.mem_singleton_self _),
    writePoints_calls_get_shard windowMeta _ hm hs _
      (List.mem_append_right _ (List.mem_singleton_self _))⟩

/-! ### What the caller sees -/

lemma WritePointsReachable.returned_cases {run : WritePointsRun} {s : WritePointsState}
    (hs : WritePointsReachable run s) {r : Option Error} (hr : s.collector = .returned r) :
    r = none ∨ r = some .writeFailed ∨ ∃ c ∈ s.calls, c.result = r := by
  obtain ⟨-, hm⟩ := hs.collectorOk
  simp only [hr] at hm
  rcases hm with ⟨rfl, -⟩ | ⟨rfl, -⟩ | ⟨-, rfl⟩
  · exact .inl rfl
  · exact .inr (.inl rfl)
  · cases hf : firstFailure s.received with
    | none => exact .inl rfl
    | some e =>
      obtain ⟨d, hd, hde⟩ := List.mem_map.mp (mem_of_firstFailure_eq_some hf)
      exact .inr (.inr ⟨_, (hs.bucketsInv run).call_of_sent (List.mem_of_mem_take hd), hde⟩)

/-- Past `MapShards`, when each bucket's call is a run of `writeToShard` on that call's shard,
level and points, `WritePoints` returns one of the values `writeToShard` returns: nil,
`ErrTimeout`, `ErrPartialWrite`, `ErrWriteFailed`, or `write failed: ` and an owner's error. An
owner's error never reaches the caller as it is. -/
theorem writePoints_returns_writer_errors {run : WritePointsRun} {s : WritePointsState}
    (hs : WritePointsReachable run s)
    (hcalls : ∀ c ∈ s.calls, ∃ cfg : ShardWrite, c.shard = some cfg.shard ∧
      cfg.consistency = c.consistency ∧ cfg.points = c.points ∧
      ∃ st, WriteToShardReachable cfg st ∧ st.collector = .returned c.result)
    {r : Option Error} (hr : s.collector = .returned r) : WriteToShardResult r := by
  rcases hs.returned_cases hr with rfl | rfl | ⟨c, hc, rfl⟩
  · exact .ok
  · exact .writeFailed
  · obtain ⟨cfg, -, -, -, st, hst, hcol⟩ := hcalls c hc
    exact hst.returned_result cfg hcol

/-- The one bucket's call is a `writeToShard` run at `ONE` whose timer fires first: it returns
`ErrTimeout`, and so does `WritePoints`. -/
theorem oneBucket_timeout_is_writer_error :
    ∃ s, WritePointsReachable oneBucketRun s ∧
      (∀ c ∈ s.calls, ∃ cfg : ShardWrite, c.shard = some cfg.shard ∧
        cfg.consistency = c.consistency ∧ cfg.points = c.points ∧
        ∃ st, WriteToShardReachable cfg st ∧ st.collector = .returned c.result) ∧
      s.collector = .returned (some .timeout) ∧ WriteToShardResult (some .timeout) := by
  have hs : WritePointsReachable oneBucketRun _ :=
    .step (.step (.step .init
      (@WritePointsStep.call oneBucketRun _ 1 (some .timeout) (by decide) rfl))
      (@WritePointsStep.send oneBucketRun _ 1 (some .timeout) rfl (by decide)))
      (@WritePointsStep.receive oneBucketRun _ 1 (some .timeout) rfl (by decide) rfl)
  let cfg : ShardWrite := ⟨⟨1, [⟨1⟩]⟩, 1, .one, [⟨0, 0⟩]⟩
  have hcfg : WriteToShardReachable cfg _ := .step (.step .init .fireTimer) (.takeTimeout rfl (by decide) rfl)
  have hcalls : ∀ c ∈ [oneBucketRun.call 1 (some .timeout)], ∃ cfg : ShardWrite, c.shard = some cfg.shard ∧
      cfg.consistency = c.consistency ∧ cfg.points = c.points ∧
      ∃ st, WriteToShardReachable cfg st ∧ st.collector = .returned c.result := fun c hc => by
    rw [List.mem_singleton.mp hc]
    exact ⟨cfg, rfl, rfl, rfl, _, hcfg, rfl⟩
  exact ⟨_, hs, hcalls, rfl, writePoints_returns_writer_errors hs hcalls rfl⟩

end InfluxCloud.Cluster
