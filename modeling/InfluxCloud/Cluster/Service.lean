import InfluxCloud.Cluster.Basic
import InfluxCloud.Cluster.Tlv

/-!
# The cluster RPC service

`Service.handleConn` over the bytes a peer sends, with the store and the `rpc` decoders as
parameters. It reads write and statement frames whole and answers each, hands the rest of the
stream to the iterator and field-dimension handlers, and logs any other type byte and reads on
from the next byte. Its one panic is the nil iterator's `Close` on an undecodable request.
-/

namespace InfluxCloud.Cluster

/-- `rpc.WriteShardRequest`, with the fields `processWriteShardRequest` reads. -/
structure WriteShardRequest where
  shardID : UInt64
  database : String
  retentionPolicy : String
  points : List Point
  deriving DecidableEq, Repr

/-- The `rpc` decoders the service calls; the package is not under src/. Only whether an
iterator or field-dimension request decodes matters, as their bodies are commented out. -/
structure Rpc where
  unmarshalWriteShardRequest : List UInt8 → Except Error WriteShardRequest
  createIteratorRequestDecodes : List UInt8 → Bool
  fieldDimensionsRequestDecodes : List UInt8 → Bool

/-- What the handler writes to the connection, or logs for an unknown type, in order. -/
inductive Output where
  | writeShardResponse (code : UInt8) (message : String)
  | unknownType (typ : UInt8)
  | createIteratorResponse
  | fieldDimensionsResponse (decoded : Bool)
  deriving DecidableEq, Repr

/-- How `handleConn` returns: end of stream at a type byte, a failed `ReadLV`, after a
stream-oriented handler, or by a runtime panic. -/
inductive Exit where
  | eof
  | lvError
  | streamDone
  | panic
  deriving DecidableEq, Repr

variable {σ : Type} (store : TSDBStore σ) (rpc : Rpc)

/-! ### Request handlers -/

/-- `fmt.Errorf("<what> %d: %s", shardID, err)`. -/
def shardError (what : String) (shardID : UInt64) (e : Error) : Error :=
  .msg (what ++ " " ++ toString shardID ++ ": " ++ e.error)

/-- The body of `processWriteShardRequest` once the request decoded: write, and on
`ErrShardNotFound` drop the request when it names no database or retention policy, else
create the shard and retry the write once. -/
def applyWriteShardRequest (req : WriteShardRequest) (s : σ) : Option Error × σ :=
  match store.writeToShard s req.shardID req.points with
  | (some .shardNotFound, s₁) =>
    if req.database = "" ∨ req.retentionPolicy = "" then (none, s₁)
    else
      match store.createShard s₁ req.database req.retentionPolicy req.shardID true with
      | (some e, s₂) => (some (shardError "create shard" req.shardID e), s₂)
      | (none, s₂) =>
        match store.writeToShard s₂ req.shardID req.points with
        | (some e, s₃) => (some (shardError "write shard" req.shardID e), s₃)
        | (none, s₃) => (none, s₃)
  | (some e, s₁) => (some (shardError "write shard" req.shardID e), s₁)
  | (none, s₁) => (none, s₁)

/-- `processWriteShardRequest`: decode the request, then apply it. -/
def processWriteShardRequest (buf : List UInt8) (s : σ) : Option Error × σ :=
  match rpc.unmarshalWriteShardRequest buf with
  | .error e => (some e, s)
  | .ok req => applyWriteShardRequest store req s

/-- `writeShardResponse`: code 0 on success, code 1 and the error's text on failure. -/
def writeShardResponse : Option Error → Output
  | some e => .writeShardResponse 1 e.error
  | none => .writeShardResponse 0 ""

/-- `processCreateIteratorRequest`. When the request does not decode, the error branch calls
`itr.Close()` while `itr` is still the nil iterator: a runtime panic. Otherwise the response is
written and, no iterator being produced, the handler returns. Modelled from the spec:
`tlv.EncodeTLV(conn, typ, nil)` writes a response without panicking. -/
def processCreateIteratorRequest (conn : List UInt8) : List Output × Exit :=
  if decodeLV rpc.createIteratorRequestDecodes conn then ([.createIteratorResponse], .streamDone)
  else ([], .panic)

/-- `processFieldDimensionsRequest`: one response, after a decode failure too. The closure's
success path has no return statement in the source; the model takes it as returning nil.
Modelled from the spec: `tlv.EncodeTLV(conn, typ, nil)` writes a response without panicking. -/
def processFieldDimensionsRequest (conn : List UInt8) : List Output :=
  [.fieldDimensionsResponse (decodeLV rpc.fieldDimensionsRequestDecodes conn)]

/-- The local-owner goroutine of `writeToShard`: one `TSDBStore.WriteToShard`, whose error is
sent as it is. -/
def writeToShardLocal (s : σ) (shardID : UInt64) (points : List Point) : Option Error × σ :=
  store.writeToShard s shardID points

/-! ### The connection handler -/

variable (codes : MessageTypes) (processExecuteStatementRequest : List UInt8 → Option Error)

lemma readType_length {bs rest : List UInt8} {typ : UInt8} (h : readType bs = some (typ, rest)) :
    rest.length < bs.length := by
  cases bs with
  | nil => cases h
  | cons b bs => cases h; simp

/-- `Service.handleConn` over the bytes the peer sends, with the store's state; the
executor of statements is a parameter, of which the source's `processExecuteStatementRequest`,
a stub returning nil, is one value. -/
def handleConn (bs : List UInt8) (s : σ) : List Output × Exit × σ :=
  match h : readType bs with
  | none => ([], .eof, s)
  | some (typ, rest) =>
    if typ = codes.writeShardRequest then
      match hlv : readLV rest with
      | none => ([], .lvError, s)
      | some (buf, rest') =>
        have := (readLV_length hlv).trans_lt (readType_length h)
        let r := processWriteShardRequest store rpc buf s
        let next := handleConn rest' r.2
        (writeShardResponse r.1 :: next.1, next.2)
    else if typ = codes.executeStatementRequest then
      match hlv : readLV rest with
      | none => ([], .lvError, s)
      | some (buf, rest') =>
        have := (readLV_length hlv).trans_lt (readType_length h)
        let next := handleConn rest' s
        (writeShardResponse (processExecuteStatementRequest buf) :: next.1, next.2)
    else if typ = codes.createIteratorRequest then
      ((processCreateIteratorRequest rpc rest).1, (processCreateIteratorRequest rpc rest).2, s)
    else if typ = codes.fieldDimensionsRequest then
      (processFieldDimensionsRequest rpc rest, .streamDone, s)
    else
      have := readType_length h
      let next := handleConn rest s
      (.unknownType typ :: next.1, next.2)
termination_by bs.length

/-! ### One lemma per branch of the handler -/

section Unfold

variable {store rpc codes processExecuteStatementRequest}

lemma MessageTypes.ne (codes : MessageTypes) :
    codes.writeShardRequest ≠ codes.executeStatementRequest ∧
    codes.writeShardRequest ≠ codes.createIteratorRequest ∧
    codes.writeShardRequest ≠ codes.fieldDimensionsRequest ∧
    codes.executeStatementRequest ≠ codes.createIteratorRequest ∧
    codes.executeStatementRequest ≠ codes.fieldDimensionsRequest ∧
    codes.createIteratorRequest ≠ codes.fieldDimensionsRequest := by
  have := codes.distinct
  simp only [List.nodup_cons, List.mem_cons, List.mem_singleton, List.not_mem_nil, not_or,
    or_false, List.nodup_nil, and_true] at this
  tauto

@[simp] lemma handleConn_nil (s : σ) :
    handleConn store rpc codes processExecuteStatementRequest [] s = ([], .eof, s) := by
  rw [handleConn]
  rfl

lemma handleConn_writeShard {rest buf rest' : List UInt8} (hlv : readLV rest = some (buf, rest'))
    (s : σ) :
    handleConn store rpc codes processExecuteStatementRequest (codes.writeShardRequest :: rest) s =
      (writeShardResponse (processWriteShardRequest store rpc buf s).1 ::
        (handleConn store rpc codes processExecuteStatementRequest rest'
          (processWriteShardRequest store rpc buf s).2).1,
        (handleConn store rpc codes processExecuteStatementRequest rest'
          (processWriteShardRequest store rpc buf s).2).2) := by
  rw [handleConn]
  simp only [readType, if_pos]
  split
  · simp_all
  · rename_i heq
    rw [hlv] at heq
    cases heq
    rfl


lemma handleConn_executeStatement {rest buf rest' : List UInt8}
    (hlv : readLV rest = some (buf, rest')) (s : σ) :
    handleConn store rpc codes processExecuteStatementRequest
        (codes.executeStatementRequest :: rest) s =
      (writeShardResponse (processExecuteStatementRequest buf) ::
        (handleConn store rpc codes processExecuteStatementRequest rest' s).1,
        (handleConn store rpc codes processExecuteStatementRequest rest' s).2) := by
  rw [handleConn]
  simp only [readType, if_neg codes.ne.1.symm, if_pos]
  split
  · simp_all
  · rename_i heq
    rw [hlv] at heq
    cases heq
    rfl

lemma handleConn_lvError {typ : UInt8} {rest : List UInt8}
    (ht : typ = codes.writeShardRequest ∨ typ = codes.executeStatementRequest)
    (hlv : readLV rest = none) (s : σ) :
    handleConn store rpc codes processExecuteStatementRequest (typ :: rest) s =
      ([], .lvError, s) := by
  rw [handleConn]
  rcases ht with rfl | rfl
  · simp only [readType, if_pos]
    split <;> simp_all
  · simp only [readType, if_neg codes.ne.1.symm, if_pos]
    split <;> simp_all

lemma handleConn_createIterator (rest : List UInt8) (s : σ) :
    handleConn store rpc codes processExecuteStatementRequest
        (codes.createIteratorRequest :: rest) s =
      ((processCreateIteratorRequest rpc rest).1, (processCreateIteratorRequest rpc rest).2, s) := by
  obtain ⟨-, h₁, -, h₂, -⟩ := codes.ne
  rw [handleConn]
  simp [readType, Ne.symm h₁, Ne.symm h₂]

lemma handleConn_fieldDimensions (rest : List UInt8) (s : σ) :
    handleConn store rpc codes processExecuteStatementRequest
        (codes.fieldDimensionsRequest :: rest) s =
      (processFieldDimensionsRequest rpc rest, .streamDone, s) := by
  obtain ⟨-, -, h₁, -, h₂, h₃⟩ := codes.ne
  rw [handleConn]
  simp [readType, Ne.symm h₁, Ne.symm h₂, Ne.symm h₃]

lemma handleConn_unknown {typ : UInt8} (ht : typ ∉ codes.dispatched) (rest : List UInt8) (s : σ) :
    handleConn store rpc codes processExecuteStatementRequest (typ :: rest) s =
      (.unknownType typ :: (handleConn store rpc codes processExecuteStatementRequest rest s).1,
        (handleConn store rpc codes processExecuteStatementRequest rest s).2) := by
  simp only [MessageTypes.dispatched, List.mem_cons, List.mem_singleton, List.not_mem_nil,
    or_false, not_or] at ht
  rw [handleConn]
  simp [readType, ht]

end Unfold

/-! ### Frames -/

/-- Modelled from the spec: the frame-level server for write and statement frames. Each frame
is processed with its own payload and answered with one `WriteShardResponse`, in order. -/
def serveFrames : List Frame → σ → List Output × σ
  | [], s => ([], s)
  | f :: fs, s =>
    let r := if f.typ = codes.writeShardRequest then processWriteShardRequest store rpc f.payload s
      else (processExecuteStatementRequest f.payload, s)
    (writeShardResponse r.1 :: (serveFrames fs r.2).1, (serveFrames fs r.2).2)

/-- The outputs `os`, then a run of the handler. -/
def prependOutputs (os : List Output) (r : List Output × Exit × σ) : List Output × Exit × σ :=
  (os ++ r.1, r.2)

lemma Frame.encode_append (f : Frame) (rest : List UInt8) :
    f.encode ++ rest = f.typ :: (beBytes64 f.payload.length ++ f.payload ++ rest) := by
  simp [Frame.encode]

lemma handleConn_frames (fs : List Frame)
    (hfs : ∀ f ∈ fs, f.typ = codes.writeShardRequest ∨ f.typ = codes.executeStatementRequest)
    (rest : List UInt8) (s : σ) :
    handleConn store rpc codes processExecuteStatementRequest (fs.flatMap Frame.encode ++ rest) s =
      prependOutputs (serveFrames store rpc codes processExecuteStatementRequest fs s).1
        (handleConn store rpc codes processExecuteStatementRequest rest
          (serveFrames store rpc codes processExecuteStatementRequest fs s).2) := by
  induction fs generalizing s with
  | nil => simp [serveFrames, prependOutputs]
  | cons f fs ih =>
    have hlv := readLV_encode f (fs.flatMap Frame.encode ++ rest)
    have ih' := fun s => ih (fun f hf => hfs f (List.mem_cons_of_mem _ hf)) s
    rw [List.flatMap_cons, List.append_assoc, Frame.encode_append]
    rcases hfs f (List.mem_cons_self _ _) with h | h
    · rw [h, handleConn_writeShard hlv, ih']
      simp [serveFrames, h, prependOutputs]
    · rw [h, handleConn_executeStatement hlv, ih']
      simp [serveFrames, h, Ne.symm codes.ne.1, prependOutputs]

lemma handleConn_stream_frame (f : Frame)
    (hf : f.typ = codes.createIteratorRequest ∨ f.typ = codes.fieldDimensionsRequest)
    (rest : List UInt8) (s : σ) :
    handleConn store rpc codes processExecuteStatementRequest (f.encode ++ rest) s =
      handleConn store rpc codes processExecuteStatementRequest f.encode s ∧
    ((handleConn store rpc codes processExecuteStatementRequest f.encode s).2.1 = .streamDone ∨
      (handleConn store rpc codes processExecuteStatementRequest f.encode s).2.1 = .panic) := by
  have hd : ∀ u : List UInt8 → Bool, decodeLV u (beBytes64 f.payload.length ++ f.payload ++ rest) =
      decodeLV u (beBytes64 f.payload.length ++ f.payload ++ []) := fun u => by
    simp only [decodeLV, readLV_encode]
  rw [Frame.encode_append, ← List.append_nil f.encode, Frame.encode_append]
  rcases hf with h | h
  · rw [h, handleConn_createIterator, handleConn_createIterator]
    simp only [processCreateIteratorRequest, hd]
    split <;> simp
  · rw [h, handleConn_fieldDimensions, handleConn_fieldDimensions]
    exact ⟨by simp only [processFieldDimensionsRequest, hd], .inl rfl⟩

variable {store rpc codes processExecuteStatementRequest} in
/-- The handler over well-formed frames: it stops at end of stream; on write and statement
frames it is the frame-level server, reading each frame whole and answering it once, in
order; an iterator or field-dimension frame ends the connection. A frame of any other type is
not skipped: its type byte is logged and the next byte, the first of the frame's length, is
read as a type byte. -/
theorem handleConn_reads_frames (s : σ) :
    handleConn store rpc codes processExecuteStatementRequest [] s = ([], .eof, s) ∧
    (∀ (fs : List Frame) (rest : List UInt8),
      (∀ f ∈ fs, f.typ = codes.writeShardRequest ∨ f.typ = codes.executeStatementRequest) →
      handleConn store rpc codes processExecuteStatementRequest (fs.flatMap Frame.encode ++ rest) s =
        prependOutputs (serveFrames store rpc codes processExecuteStatementRequest fs s).1
          (handleConn store rpc codes processExecuteStatementRequest rest
            (serveFrames store rpc codes processExecuteStatementRequest fs s).2)) ∧
    (∀ (f : Frame) (rest : List UInt8),
      f.typ = codes.createIteratorRequest ∨ f.typ = codes.fieldDimensionsRequest →
      handleConn store rpc codes processExecuteStatementRequest (f.encode ++ rest) s =
          handleConn store rpc codes processExecuteStatementRequest f.encode s ∧
        ((handleConn store rpc codes processExecuteStatementRequest f.encode s).2.1 = .streamDone ∨
          (handleConn store rpc codes processExecuteStatementRequest f.encode s).2.1 = .panic)) ∧
    (∀ (typ : UInt8) (rest : List UInt8), typ ∉ codes.dispatched →
      handleConn store rpc codes processExecuteStatementRequest (typ :: rest) s =
        prependOutputs [.unknownType typ] (handleConn store rpc codes processExecuteStatementRequest rest s)) :=
  ⟨handleConn_nil s, fun fs rest hfs => handleConn_frames _ _ _ _ fs hfs rest s,
    fun f rest hf => handleConn_stream_frame _ _ _ _ f hf rest s,
    fun _ rest ht => handleConn_unknown ht rest s⟩

/-- Sample request codes; the spec leaves their values opaque. -/
def sampleCodes : MessageTypes := ⟨1, 3, 5, 7, by decide⟩

/-- A store that accepts every call, for runs that never reach the store. -/
def nullStore : TSDBStore Unit := ⟨fun s _ _ _ _ => (none, s), fun s _ _ => (none, s)⟩

/-- Decoders that reject every request, for runs that never decode one. -/
def nullRpc : Rpc := ⟨fun _ => .error .writeFailed, fun _ => false, fun _ => false⟩

/-- A frame of an unknown type 9 with an empty payload: after logging type 9, the handler reads
the eight bytes of the frame's length as eight type bytes. The store, the decoders and the
executor are never reached. -/
theorem handleConn_reads_length_as_types :
    (9 : UInt8) ∉ sampleCodes.dispatched ∧
    handleConn nullStore nullRpc sampleCodes (fun _ => none) (Frame.encode ⟨9, [], Nat.zero_le _⟩) () =
      (.unknownType 9 :: List.replicate 8 (.unknownType 0), .eof, ()) := by
  have h0 : (0 : UInt8) ∉ sampleCodes.dispatched := by decide
  have h9 : (9 : UInt8) ∉ sampleCodes.dispatched := by decide
  have henc : Frame.encode ⟨9, [], Nat.zero_le _⟩ = [9, 0, 0, 0, 0, 0, 0, 0, 0] := rfl
  refine ⟨h9, ?_⟩
  simp [henc, handleConn_unknown h0, handleConn_unknown h9]

/-! ### Decode failures -/

variable {store rpc codes processExecuteStatementRequest} in
/-- A peer that sends the iterator request's type byte and closes the connection makes
`processCreateIteratorRequest` call `Close` on the nil iterator; the field-dimension handler,
on the same failure, answers and returns. -/
theorem createIterator_decode_failure_panics (s : σ) :
    handleConn store rpc codes processExecuteStatementRequest [codes.createIteratorRequest] s =
      ([], .panic, s) ∧
    handleConn store rpc codes processExecuteStatementRequest [codes.fieldDimensionsRequest] s =
      ([.fieldDimensionsResponse false], .streamDone, s) := by
  rw [handleConn_createIterator, handleConn_fieldDimensions]
  simp [processCreateIteratorRequest, processFieldDimensionsRequest, decodeLV, readLV]

/-! ### The local write and the peer write -/

/-- Modelled from the spec: a TSDB store holding the points of each shard it created; a write
to a shard it does not hold fails with `ErrShardNotFound`. -/
def memStore : TSDBStore (List (UInt64 × List Point)) where
  createShard s _ _ id _ := (none, if s.any (·.1 = id) then s else s ++ [(id, [])])
  writeToShard s id pts :=
    if s.any (·.1 = id) then (none, s.map fun e => if e.1 = id then (e.1, e.2 ++ pts) else e)
    else (some .shardNotFound, s)

/-- Shard 42 exists in the metadata but not yet in the store. The local-owner goroutine fails
with `ErrShardNotFound` and leaves the store as it was; the same write from a peer creates the
shard, retries and succeeds. -/
theorem local_write_skips_create_shard :
    writeToShardLocal memStore [] 42 [⟨0, 0⟩] = (some .shardNotFound, []) ∧
    applyWriteShardRequest memStore ⟨42, "x", "y", [⟨0, 0⟩]⟩ [] = (none, [(42, [⟨0, 0⟩])]) :=
  ⟨rfl, by decide⟩

/-! ### Where the handler can panic -/

/-- The handler's loop, from the stream `bs`, comes back to read a type byte at the suffix `r`:
on the way it read only whole write or statement frames and unknown type bytes. -/
inductive LoopReaches (codes : MessageTypes) : List UInt8 → List UInt8 → Prop
  | here (bs : List UInt8) : LoopReaches codes bs bs
  | frame {typ : UInt8} {rest buf rest' r : List UInt8}
      (ht : typ = codes.writeShardRequest ∨ typ = codes.executeStatementRequest)
      (hlv : readLV rest = some (buf, rest')) (h : LoopReaches codes rest' r) :
      LoopReaches codes (typ :: rest) r
  | unknown {typ : UInt8} {rest r : List UInt8} (ht : typ ∉ codes.dispatched)
      (h : LoopReaches codes rest r) : LoopReaches codes (typ :: rest) r

lemma readType_eq_some {bs rest : List UInt8} {typ : UInt8} (h : readType bs = some (typ, rest)) :
    bs = typ :: rest := by
  cases bs with
  | nil => cases h
  | cons b bs => cases h; rfl

variable {store rpc codes processExecuteStatementRequest} in
/-- The only panic of the handler is the nil-iterator `Close`: the handler panics exactly when
its loop reads an iterator request's type byte, after whole write or statement frames and
unknown type bytes, and the request that follows does not decode. -/
theorem handleConn_panics_only_at_iterator_request (bs : List UInt8) (s : σ) :
    (handleConn store rpc codes processExecuteStatementRequest bs s).2.1 = .panic ↔
      ∃ rest, LoopReaches codes bs (codes.createIteratorRequest :: rest) ∧
        decodeLV rpc.createIteratorRequestDecodes rest = false := by
  constructor
  · intro h
    induction bs, s using handleConn.induct store rpc codes processExecuteStatementRequest with
    | case1 bs s hr =>
      cases bs with
      | nil => simp at h
      | cons => cases hr
    | case2 bs s rest hlv hr | case4 bs s rest hlv hr =>
      rw [readType_eq_some hr, handleConn_lvError (by simp) hlv] at h
      cases h
    | case3 bs s rest buf rest' hlv _ _ hr ih =>
      obtain rfl := readType_eq_some hr
      rw [handleConn_writeShard hlv] at h
      exact (ih h).imp fun _ ⟨hreach, hd⟩ => ⟨.frame (.inl rfl) hlv hreach, hd⟩
    | case5 bs s rest buf rest' hlv _ hr _ ih =>
      obtain rfl := readType_eq_some hr
      rw [handleConn_executeStatement hlv] at h
      exact (ih h).imp fun _ ⟨hreach, hd⟩ => ⟨.frame (.inr rfl) hlv hreach, hd⟩
    | case6 bs s rest hr =>
      rw [readType_eq_some hr, handleConn_createIterator] at h
      refine ⟨rest, readType_eq_some hr ▸ .here _, ?_⟩
      simpa [processCreateIteratorRequest, apply_ite Prod.snd] using h
    | case7 bs s rest hr =>
      rw [readType_eq_some hr, handleConn_fieldDimensions] at h
      cases h
    | case8 bs s typ rest hr h₁ h₂ h₃ h₄ _ ih =>
      have ht : typ ∉ codes.dispatched := by simp [MessageTypes.dispatched, h₁, h₂, h₃, h₄]
      obtain rfl := readType_eq_some hr
      rw [handleConn_unknown ht] at h
      exact (ih h).imp fun _ ⟨hreach, hd⟩ => ⟨.unknown ht hreach, hd⟩
  · rintro ⟨rest, hreach, hd⟩
    generalize hr : codes.createIteratorRequest :: rest = r at hreach
    induction hreach generalizing s with
    | here =>
      subst hr
      simp [handleConn_createIterator, processCreateIteratorRequest, hd]
    | frame ht hlv _ ih =>
      rcases ht with rfl | rfl
      · rw [handleConn_writeShard hlv]
        exact ih _ hr
      · rw [handleConn_executeStatement hlv]
        exact ih _ hr
    | unknown ht _ ih =>
      rw [handleConn_unknown ht]
      exact ih _ hr

/-- An iterator request cut short after its type byte panics. -/
theorem handleConn_panic_at_cut_iterator_request :
    (handleConn nullStore nullRpc sampleCodes (fun _ => none) [5] ()).2.1 = .panic :=
  (handleConn_panics_only_at_iterator_request [5] ()).mpr ⟨[], .here _, rfl⟩

end InfluxCloud.Cluster
