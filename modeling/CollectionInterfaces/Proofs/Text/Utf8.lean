import CollectionInterfaces.Proofs.Results
import CollectionInterfaces.Text.Utf8

/-!
# UTF-8 round trip

A text has an encoding exactly if no surrogate stands alone in it (`Utf8.encode_eq_ok_iff`), and
decoding gives the text back (`Utf8.decode_encode`), so no two texts have the same bytes.
-/

namespace CollectionInterfaces

namespace CodePoint

variable {c : CodePoint}

theorem isSurrogate_eq_false_iff : c.isSurrogate = false ↔ c.val < 0xD800 ∨ 0xDFFF < c.val := by
  simp only [isSurrogate, Bool.and_eq_false_iff, decide_eq_false_iff_not, Nat.not_le]

theorem ofNat_val (c : CodePoint) : ofNat c.val = c := by
  simp [ofNat, c.isLt]

end CodePoint

namespace Utf8

variable {t s : Text} {bytes : Bytes}

/-! ## Encoding -/

/-- No surrogate stands in a text. -/
def IsScalar (t : Text) : Prop := ∀ c ∈ t, c.isSurrogate = false

instance (t : Text) : Decidable (IsScalar t) := inferInstanceAs (Decidable (∀ c ∈ _, _))

theorem IsScalar.mono (h : IsScalar t) (hpart : s <:+: t) : IsScalar s :=
  fun c hc => h c (hpart.subset hc)

theorem encodeWith_of_isScalar (escape : CodePoint → Option UInt8) (position : Nat)
    (h : IsScalar t) : encodeWith escape position t = .ok (t.flatMap CodePoint.utf8) := by
  induction t generalizing position with
  | nil => rfl
  | cons c rest ih =>
    simp only [encodeWith, h c (by simp), Bool.false_eq_true, if_false, List.flatMap_cons]
    rw [ih (position + 1) fun d hd => h d (List.mem_cons_of_mem c hd)]
    rfl

theorem isScalar_of_encodeWith {position : Nat}
    (h : encodeWith (fun _ => none) position t = .ok bytes) : IsScalar t := by
  induction t generalizing position bytes with
  | nil => simp [IsScalar]
  | cons c rest ih =>
    unfold encodeWith at h
    split at h
    · cases h
    · rename_i hc
      obtain ⟨more, hrest, -⟩ := map_eq_ok_iff.mp h
      intro d hd
      rcases List.mem_cons.mp hd with rfl | hd
      · simpa using hc
      · exact ih hrest d hd

/-- A text has bytes exactly if no surrogate stands in it. -/
theorem encode_eq_ok_iff :
    encode t = .ok bytes ↔ IsScalar t ∧ bytes = t.flatMap CodePoint.utf8 := by
  constructor
  · intro h
    have hscalar := isScalar_of_encodeWith h
    rw [encode, encodeWith_of_isScalar _ _ hscalar] at h
    exact ⟨hscalar, (Except.ok.inj h).symm⟩
  · rintro ⟨hscalar, rfl⟩
    exact encodeWith_of_isScalar _ _ hscalar

theorem not_isScalar_of_encode {error : EncodeError} (h : encode t = .error error) :
    ¬IsScalar t := by
  intro hscalar
  rw [encode_eq_ok_iff.mpr ⟨hscalar, rfl⟩] at h
  cases h

theorem encodeName_of_isScalar (h : IsScalar t) :
    encodeName t = .ok (t.flatMap CodePoint.utf8) := encodeWith_of_isScalar _ _ h

/-! ## Decoding -/

theorem toNat_toUInt8 {n : Nat} (h : n < 256) : n.toUInt8.toNat = n := Nat.mod_eq_of_lt h

theorem isTail_toUInt8 {n : Nat} (h : n < 0x40) : isTail (0x80 + n).toUInt8 = true := by
  simp only [isTail, toNat_toUInt8 (show 0x80 + n < 256 by omega), Bool.and_eq_true,
    decide_eq_true_eq]
  omega

theorem tailBits_toUInt8 {n : Nat} (h : n < 0x40) : tailBits (0x80 + n).toUInt8 = n := by
  have hb := toNat_toUInt8 (show 0x80 + n < 256 by omega)
  unfold tailBits
  omega

/-- The second byte of a character whose number is not too small for its bytes, no surrogate and
not too large. -/
theorem isSecond_toUInt8 {first n : Nat} (hfirst : first < 256) (h : n < 0x40)
    (he0 : first = 0xE0 → 0x20 ≤ n) (hed : first = 0xED → n < 0x20) (hf0 : first = 0xF0 → 0x10 ≤ n)
    (hf4 : first = 0xF4 → n < 0x10) : isSecond first.toUInt8 (0x80 + n).toUInt8 = true := by
  have heq (m : Nat) (hm : m < 256) : (first.toUInt8 == m.toUInt8) = decide (first = m) := by
    rw [Bool.eq_iff_iff, beq_iff_eq, ← UInt8.toNat_inj, toNat_toUInt8 hfirst, toNat_toUInt8 hm,
      decide_eq_true_eq]
  have hE0 := heq 0xE0 (by omega)
  have hED := heq 0xED (by omega)
  have hF0 := heq 0xF0 (by omega)
  have hF4 := heq 0xF4 (by omega)
  simp only [isSecond, isTail_toUInt8 h, toNat_toUInt8 (show 0x80 + n < 256 by omega)]
  simp only [show (0xE0 : UInt8) = (0xE0 : Nat).toUInt8 from rfl,
    show (0xED : UInt8) = (0xED : Nat).toUInt8 from rfl,
    show (0xF0 : UInt8) = (0xF0 : Nat).toUInt8 from rfl,
    show (0xF4 : UInt8) = (0xF4 : Nat).toUInt8 from rfl, hE0, hED, hF0, hF4]
  simp only [Bool.true_and, Bool.and_eq_true, Bool.not_eq_true', Bool.and_eq_false_iff,
    decide_eq_false_iff_not]
  omega

theorem decodeOne_one {n : Nat} (rest : Bytes) (h : n < 0x80) :
    decodeOne n.toUInt8 rest = .ok (.ofNat n, 0) := by
  have hb := toNat_toUInt8 (show n < 256 by omega)
  simp only [decodeOne, UInt8.lt_iff_toNat_lt, UInt8.reduceToNat, hb]
  exact if_pos h

theorem decodeOne_two {n x : Nat} (rest : Bytes) (hn : 0x02 ≤ n ∧ n < 0x20) (hx : x < 0x40) :
    decodeOne (0xC0 + n).toUInt8 ((0x80 + x).toUInt8 :: rest) = .ok (.ofNat (n * 0x40 + x), 1) := by
  have hb := toNat_toUInt8 (show 0xC0 + n < 256 by omega)
  simp only [decodeOne, UInt8.lt_iff_toNat_lt, UInt8.reduceToNat, hb, isTail_toUInt8 hx,
    tailBits_toUInt8 hx]
  rw [if_neg (by omega), if_neg (by omega), if_pos (by omega)]
  simp

theorem decodeOne_three {n x y : Nat} (rest : Bytes) (hn : n < 0x10) (hx : x < 0x40)
    (hy : y < 0x40) (hsmall : n = 0 → 0x20 ≤ x) (hsurrogate : n = 0xD → x < 0x20) :
    decodeOne (0xE0 + n).toUInt8 ((0x80 + x).toUInt8 :: (0x80 + y).toUInt8 :: rest) =
      .ok (.ofNat (n * 0x1000 + x * 0x40 + y), 2) := by
  have hb := toNat_toUInt8 (show 0xE0 + n < 256 by omega)
  have hsecond : isSecond (0xE0 + n).toUInt8 (0x80 + x).toUInt8 = true :=
    isSecond_toUInt8 (by omega) hx (by omega) (by omega) (by omega) (by omega)
  simp only [decodeOne, UInt8.lt_iff_toNat_lt, UInt8.reduceToNat, hb, hsecond, isTail_toUInt8 hy,
    tailBits_toUInt8 hx, tailBits_toUInt8 hy]
  rw [if_neg (by omega), if_neg (by omega), if_neg (by omega), if_pos (by omega)]
  simp

theorem decodeOne_four {n x y z : Nat} (rest : Bytes) (hn : n < 0x05) (hx : x < 0x40)
    (hy : y < 0x40) (hz : z < 0x40) (hsmall : n = 0 → 0x10 ≤ x) (hlarge : n = 4 → x < 0x10) :
    decodeOne (0xF0 + n).toUInt8
      ((0x80 + x).toUInt8 :: (0x80 + y).toUInt8 :: (0x80 + z).toUInt8 :: rest) =
      .ok (.ofNat (n * 0x40000 + x * 0x1000 + y * 0x40 + z), 3) := by
  have hb := toNat_toUInt8 (show 0xF0 + n < 256 by omega)
  have hsecond : isSecond (0xF0 + n).toUInt8 (0x80 + x).toUInt8 = true :=
    isSecond_toUInt8 (by omega) hx (by omega) (by omega) (by omega) (by omega)
  simp only [decodeOne, UInt8.lt_iff_toNat_lt, UInt8.reduceToNat, hb, hsecond, isTail_toUInt8 hy,
    isTail_toUInt8 hz, tailBits_toUInt8 hx, tailBits_toUInt8 hy, tailBits_toUInt8 hz]
  rw [if_neg (by omega), if_neg (by omega), if_neg (by omega), if_neg (by omega), if_pos (by omega)]
  simp

/-- The bytes of a code point are read as the code point, whatever follows. -/
theorem decodeOne_utf8 (c : CodePoint) (h : c.isSurrogate = false) (rest : Bytes) :
    ∃ b tail, c.utf8 = b :: tail ∧ decodeOne b (tail ++ rest) = .ok (c, tail.length) := by
  have hlt := c.isLt
  have hscalar := CodePoint.isSurrogate_eq_false_iff.mp h
  have hc {n : Nat} (hn : n = c.val) : CodePoint.ofNat n = c := by rw [hn, CodePoint.ofNat_val]
  unfold CodePoint.utf8
  dsimp only
  split
  · refine ⟨_, _, rfl, ?_⟩
    rw [List.nil_append, decodeOne_one rest ‹_›, hc rfl]
    rfl
  split
  · refine ⟨_, _, rfl, ?_⟩
    rw [List.cons_append, decodeOne_two _ (by omega) (by omega), hc (by omega)]
    rfl
  split
  · refine ⟨_, _, rfl, ?_⟩
    rw [List.cons_append, List.cons_append,
      decodeOne_three _ (by omega) (by omega) (by omega) (by omega) (by omega), hc (by omega)]
    rfl
  · refine ⟨_, _, rfl, ?_⟩
    rw [List.cons_append, List.cons_append, List.cons_append,
      decodeOne_four _ (by omega) (by omega) (by omega) (by omega) (by omega) (by omega),
      hc (by omega)]
    rfl

theorem decodeFrom_skip (position : Nat) (skipped rest : Bytes) :
    decodeFrom position skipped.length (skipped ++ rest) =
      decodeFrom (position + skipped.length) 0 rest := by
  induction skipped generalizing position with
  | nil => rfl
  | cons b skipped ih =>
    simp only [List.cons_append, List.length_cons, decodeFrom]
    rw [ih, Nat.add_assoc, Nat.add_comm 1]

theorem decodeFrom_flatMap (position : Nat) (h : IsScalar t) :
    decodeFrom position 0 (t.flatMap CodePoint.utf8) = .ok t := by
  induction t generalizing position with
  | nil => rfl
  | cons c rest ih =>
    obtain ⟨b, tail, hutf8, hdecode⟩ :=
      decodeOne_utf8 c (h c (by simp)) (rest.flatMap CodePoint.utf8)
    rw [List.flatMap_cons, hutf8, List.cons_append, decodeFrom, hdecode]
    dsimp only
    rw [decodeFrom_skip, ih _ fun d hd => h d (List.mem_cons_of_mem c hd)]
    rfl

/-- Decoding gives back the text that was encoded. -/
theorem decode_encode (h : encode t = .ok bytes) : decode bytes = .ok t := by
  obtain ⟨hscalar, rfl⟩ := encode_eq_ok_iff.mp h
  exact decodeFrom_flatMap 0 hscalar

/-- No two texts have the same bytes. -/
theorem flatMap_utf8_injective (ht : IsScalar t) (hs : IsScalar s)
    (h : t.flatMap CodePoint.utf8 = s.flatMap CodePoint.utf8) : t = s := by
  have htext := decodeFrom_flatMap 0 ht
  rw [h, decodeFrom_flatMap 0 hs] at htext
  exact (Except.ok.inj htext).symm

end Utf8

end CollectionInterfaces
