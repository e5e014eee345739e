import ComponentLoader.Proofs.Text.Bytes
import ComponentLoader.Request.Percent

/-! Decoding an encoded value gives the value back, and an encoded value holds no
character that separates the parts of a query. -/
namespace ComponentLoader

namespace Percent

open Text

/-- A character of an encoded value: it takes one byte, is no separator, and does
not stand for another. -/
def isInert (c : Char) : Bool :=
  c.toNat < 0x80 && c != '+' && c != '&' && c != '=' && c != '?'

/-- What holds of every number below 256 holds of every byte. -/
theorem forall_byte {p : UInt8 → Prop} (h : ∀ n < 256, p (UInt8.ofNat n)) (b : UInt8) : p b := by
  have := h b.toNat b.toNat_lt
  rwa [UInt8.ofNat_toNat] at this

theorem all_isInert_encodeByte : ∀ b, (encodeByte b).all isInert :=
  forall_byte (by decide +kernel)

theorem encode_encodeByte_plain : ∀ b, isPlain b → Utf8.encode (encodeByte b) = [b] ∧ b ≠ 0x25 :=
  forall_byte (by decide +kernel)

theorem hexValue?_hexDigit : ∀ n < 16, (hexDigit n).toNat < 0x80 ∧
    hexValue? (Utf8.byte (hexDigit n)) = some (UInt8.ofNat n) := by
  decide

theorem two_digits : ∀ b : UInt8,
    UInt8.ofNat (b.toNat / 16) * 16 + UInt8.ofNat (b.toNat % 16) = b :=
  forall_byte (by decide +kernel)

theorem decodeBytes_cons {b : UInt8} (h : b ≠ 0x25) (rest : List UInt8) :
    decodeBytes (b :: rest) = b :: decodeBytes rest := by
  rw [decodeBytes]
  intro _ _ _ same
  exact absurd same h

/-- One byte is read back from its encoding, whatever follows. -/
theorem decodeBytes_encodeByte (b : UInt8) (rest : List UInt8) :
    decodeBytes (Utf8.encode (encodeByte b) ++ rest) = b :: decodeBytes rest := by
  by_cases plain : isPlain b
  · obtain ⟨itself, noSign⟩ := encode_encodeByte_plain b plain
    rw [itself, List.singleton_append, decodeBytes_cons noSign]
  · have bound := b.toNat_lt
    obtain ⟨ascii₁, high⟩ := hexValue?_hexDigit (b.toNat / 16) (by omega)
    obtain ⟨ascii₂, low⟩ := hexValue?_hexDigit (b.toNat % 16) (by omega)
    rw [encodeByte, if_neg plain, Utf8.encode_cons_ascii (by decide), Utf8.encode_cons_ascii ascii₁,
      Utf8.encode_cons_ascii ascii₂]
    change decodeBytes (0x25 :: _ :: _ :: rest) = _
    rw [decodeBytes, high, low]
    exact congrArg (· :: decodeBytes rest) (two_digits b)

theorem decodeBytes_encodeBytes (bs : List UInt8) :
    decodeBytes (Utf8.encode (bs.flatMap encodeByte)) = bs := by
  induction bs with
  | nil => rfl
  | cons b bs ih => rw [List.flatMap_cons, Utf8.encode_append, decodeBytes_encodeByte, ih]

/-- The characters of an encoded value separate nothing. -/
theorem isInert_of_mem_encode {s : List Char} {c : Char} (h : c ∈ encode s) : isInert c := by
  obtain ⟨b, -, hc⟩ := List.mem_flatMap.mp h
  exact List.all_eq_true.mp (all_isInert_encodeByte b) c hc

theorem notMem_encode {c : Char} (h : isInert c = false) (s : List Char) : c ∉ encode s := by
  intro mem
  rw [isInert_of_mem_encode mem] at h
  cases h

/-- A value is read back from its encoding. -/
theorem decode_encode (s : List Char) : decode (encode s) = s := by
  have unspaced : (encode s).map (fun c => if c = '+' then ' ' else c) = encode s := by
    have signless : '+' ∉ encode s := notMem_encode (by decide) s
    refine (List.map_congr_left fun c hc => ?_).trans (List.map_id _)
    have unlike : c ≠ '+' := fun same => signless (same ▸ hc)
    exact if_neg unlike
  rw [decode, unspaced, encode, decodeBytes_encodeBytes, Utf8.decode_encode]

/-- Letters and digits are encoded as they are. -/
theorem encode_alphanumeric {s : List Char} (h : s.all Char.isAlphanum = true) :
    encode s = s := by
  induction s with
  | nil => rfl
  | cons c s ih =>
    obtain ⟨own, others⟩ := Bool.and_eq_true_iff.mp h
    have ascii : c.toNat < 0x80 := Utf8.ascii_of_isAlphanum own
    have code : (Utf8.byte c).toNat = c.toNat := Utf8.toNat_ofNat_lt (by omega)
    have plain : isPlain (Utf8.byte c) := by
      simp [isPlain, code, own]
    rw [encode, Utf8.encode_cons_ascii ascii, List.flatMap_cons, encodeByte, if_pos plain, code,
      Char.ofNat_toNat]
    exact congrArg (c :: ·) (ih others)

end Percent

end ComponentLoader
