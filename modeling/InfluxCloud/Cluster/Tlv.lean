import Mathlib.Data.List.Basic

/-!
# Type-length-value framing

The `tlv` package is not under src/; this module models it from the spec. A frame is a type
byte, an 8-byte big-endian length and the payload, and `ReadLV` rejects a length above
`MaxMessageSize`. The type codes are parameters, the four the handler dispatches on distinct.
Reading back an encoded frame yields its payload and the rest of the stream (`readLV_encode`).
-/

namespace InfluxCloud.Cluster

/-- `MaxMessageSize`. -/
def maxMessageSize : Nat := 1024 * 1024 * 1024

/-- Modelled from the spec: the request type codes of `tlv` that `handleConn` dispatches on.
Their values are not under src/; as constant cases of one Go switch they are distinct. -/
structure MessageTypes where
  writeShardRequest : UInt8
  executeStatementRequest : UInt8
  createIteratorRequest : UInt8
  fieldDimensionsRequest : UInt8
  distinct : [writeShardRequest, executeStatementRequest, createIteratorRequest,
    fieldDimensionsRequest].Nodup

/-- The codes `handleConn` dispatches on. -/
def MessageTypes.dispatched (codes : MessageTypes) : List UInt8 :=
  [codes.writeShardRequest, codes.executeStatementRequest, codes.createIteratorRequest,
    codes.fieldDimensionsRequest]

/-- The big-endian value of a byte string. -/
def beValue (bs : List UInt8) : Nat := bs.foldl (fun acc b => acc * 256 + b.toNat) 0

/-- Modelled from the spec: the 8 big-endian bytes of `n` modulo 2^64, the divisors being
256^7, ..., 256. -/
def beBytes64 (n : Nat) : List UInt8 :=
  [(n / 72057594037927936).toUInt8, (n / 281474976710656).toUInt8, (n / 1099511627776).toUInt8,
    (n / 4294967296).toUInt8, (n / 16777216).toUInt8, (n / 65536).toUInt8, (n / 256).toUInt8,
    n.toUInt8]

@[simp] lemma toNat_toUInt8 (n : Nat) : n.toUInt8.toNat = n % 256 := rfl

@[simp] lemma beBytes64_length (n : Nat) : (beBytes64 n).length = 8 := rfl

lemma div_mod_mul_add_mod (x k : Nat) : x / 256 % k * 256 + x % 256 = x % (k * 256) := by
  rw [Nat.mul_comm k 256, Nat.mod_mul]
  omega

lemma beValue_beBytes64 (n : Nat) : beValue (beBytes64 n) = n % 18446744073709551616 := by
  simp only [beValue, beBytes64, List.foldl, toNat_toUInt8, Nat.zero_mul, Nat.zero_add]
  rw [← Nat.div_div_eq_div_mul n 281474976710656 256, div_mod_mul_add_mod,
    ← Nat.div_div_eq_div_mul n 1099511627776 256, div_mod_mul_add_mod,
    ← Nat.div_div_eq_div_mul n 4294967296 256, div_mod_mul_add_mod,
    ← Nat.div_div_eq_div_mul n 16777216 256, div_mod_mul_add_mod,
    ← Nat.div_div_eq_div_mul n 65536 256, div_mod_mul_add_mod,
    ← Nat.div_div_eq_div_mul n 256 256, div_mod_mul_add_mod, div_mod_mul_add_mod]

lemma beBytes64_beValue {l : List UInt8} (hl : l.length = 8) : beBytes64 (beValue l) = l := by
  match l, hl with
  | [b0, b1, b2, b3, b4, b5, b6, b7], _ =>
    have : b0.toNat < 256 ∧ b1.toNat < 256 ∧ b2.toNat < 256 ∧ b3.toNat < 256 ∧
        b4.toNat < 256 ∧ b5.toNat < 256 ∧ b6.toNat < 256 ∧ b7.toNat < 256 :=
      ⟨b0.val.isLt, b1.val.isLt, b2.val.isLt, b3.val.isLt, b4.val.isLt, b5.val.isLt,
        b6.val.isLt, b7.val.isLt⟩
    simp only [beBytes64, beValue, List.foldl, List.cons.injEq, and_true]
    refine ⟨?_, ?_, ?_, ?_, ?_, ?_, ?_, ?_⟩ <;> apply UInt8.toNat.inj <;>
      simp only [toNat_toUInt8] <;> omega

/-- Modelled from the spec: `tlv.ReadType`, one byte, or end of stream. -/
def readType : List UInt8 → Option (UInt8 × List UInt8)
  | [] => none
  | b :: rest => some (b, rest)

/-- Modelled from the spec: `tlv.ReadLV`, the length then the payload, with the rest of the
stream; `none` on a short read or a length above `MaxMessageSize`. -/
def readLV (bs : List UInt8) : Option (List UInt8 × List UInt8) :=
  if bs.length < 8 then none
  else if maxMessageSize < beValue (bs.take 8) then none
  else if (bs.drop 8).length < beValue (bs.take 8) then none
  else some ((bs.drop 8).take (beValue (bs.take 8)), (bs.drop 8).drop (beValue (bs.take 8)))

lemma readLV_length {bs buf rest : List UInt8} (h : readLV bs = some (buf, rest)) :
    rest.length ≤ bs.length := by
  unfold readLV at h
  split_ifs at h
  obtain ⟨-, rfl⟩ := Prod.mk.inj (Option.some.inj h)
  simp only [List.length_drop]
  omega

/-- `tlv.DecodeLV`: `ReadLV`, then the value's `UnmarshalBinary`; only success matters to the
service. -/
def decodeLV (unmarshal : List UInt8 → Bool) (bs : List UInt8) : Bool :=
  match readLV bs with
  | some (buf, _) => unmarshal buf
  | none => false

/-- A well-formed frame: its payload is within `MaxMessageSize`. -/
structure Frame where
  typ : UInt8
  payload : List UInt8
  small : payload.length ≤ maxMessageSize

lemma Frame.beValue_length (f : Frame) :
    beValue (beBytes64 f.payload.length) = f.payload.length := by
  rw [beValue_beBytes64]
  exact Nat.mod_eq_of_lt (by have := f.small; unfold maxMessageSize at this; omega)

/-- The bytes of a frame on the wire, as `WriteTLV` writes them. -/
def Frame.encode (f : Frame) : List UInt8 := f.typ :: (beBytes64 f.payload.length ++ f.payload)

/-- Reading the length and value of an encoded frame gives its payload back and leaves the
rest of the stream. -/
theorem readLV_encode (f : Frame) (rest : List UInt8) :
    readLV (beBytes64 f.payload.length ++ f.payload ++ rest) = some (f.payload, rest) := by
  simp only [readLV, List.append_assoc, List.length_append, beBytes64_length,
    List.take_left' (beBytes64_length _), List.drop_left' (beBytes64_length _), f.beValue_length,
    List.take_left, List.drop_left]
  simp [f.small]

lemma readLV_eq_some {bs buf rest : List UInt8} (h : readLV bs = some (buf, rest)) :
    buf.length ≤ maxMessageSize ∧ bs = beBytes64 buf.length ++ buf ++ rest := by
  unfold readLV at h
  split_ifs at h with h8 hmax hshort
  obtain ⟨rfl, rfl⟩ := Prod.mk.inj (Option.some.inj h)
  have hlen : ((bs.drop 8).take (beValue (bs.take 8))).length = beValue (bs.take 8) := by
    rw [List.length_take]
    omega
  refine ⟨by omega, ?_⟩
  rw [hlen, beBytes64_beValue (by rw [List.length_take]; omega), List.append_assoc,
    List.take_append_drop, List.take_append_drop]

/-- `ReadTLV` of the service file: the type byte, then the length and value. -/
def readTLV (bs : List UInt8) : Option (UInt8 × List UInt8 × List UInt8) :=
  match readType bs with
  | none => none
  | some (typ, rest) =>
    match readLV rest with
    | none => none
    | some (buf, rest') => some (typ, buf, rest')

lemma readLV_truncated (f : Frame) {k : Nat} (hk : k < 8 + f.payload.length) :
    readLV ((beBytes64 f.payload.length ++ f.payload).take k) = none := by
  have hsmall := f.small
  have hlen : ((beBytes64 f.payload.length ++ f.payload).take k).length = k := by
    simp only [List.length_take, List.length_append, beBytes64_length]
    omega
  unfold readLV
  by_cases h8 : k < 8
  · rw [if_pos (by omega)]
  · have htake : ((beBytes64 f.payload.length ++ f.payload).take k).take 8 =
        beBytes64 f.payload.length := by
      rw [List.take_take, Nat.min_eq_left (by omega), List.take_left' (beBytes64_length _)]
    rw [if_neg (by omega), htake, f.beValue_length, if_neg (by omega),
      if_pos (by rw [List.length_drop, hlen]; omega)]

/-- `ReadTLV` reads back a frame `WriteTLV` wrote and leaves the rest of the stream; on a frame
cut short it fails. -/
theorem readTLV_encode (f : Frame) (rest : List UInt8) :
    readTLV (f.encode ++ rest) = some (f.typ, f.payload, rest) ∧
    ∀ k < f.encode.length, readTLV (f.encode.take k) = none := by
  refine ⟨by simp only [readTLV, Frame.encode, List.cons_append, readType, readLV_encode],
    fun k hk => ?_⟩
  cases k with
  | zero => rfl
  | succ k =>
    simp only [Frame.encode, List.length_cons, List.length_append, beBytes64_length,
      List.take_succ_cons] at hk ⊢
    simp [readTLV, readType, readLV_truncated f (by omega : k < 8 + f.payload.length)]

/-- `ReadTLV` accepts exactly the streams that begin with an encoded frame, and returns that
frame's type and payload with the rest of the stream. -/
theorem readTLV_eq_some_iff {bs buf rest : List UInt8} {typ : UInt8} :
    readTLV bs = some (typ, buf, rest) ↔
      ∃ f : Frame, f.typ = typ ∧ f.payload = buf ∧ bs = f.encode ++ rest := by
  constructor
  · intro h
    match bs, h with
    | b :: bs', h =>
      simp only [readTLV, readType] at h
      split at h
      · cases h
      · rename_i buf' rest' hlv
        obtain ⟨rfl, rfl, rfl⟩ : b = typ ∧ buf' = buf ∧ rest' = rest := by simpa using h
        obtain ⟨hsmall, rfl⟩ := readLV_eq_some hlv
        exact ⟨⟨b, buf', hsmall⟩, rfl, rfl, by simp [Frame.encode]⟩
  · rintro ⟨f, rfl, rfl, rfl⟩
    simp only [readTLV, Frame.encode, List.cons_append, readType, readLV_encode]

end InfluxCloud.Cluster
