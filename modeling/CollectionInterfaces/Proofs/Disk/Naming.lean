import CollectionInterfaces.Disk.Walk
import CollectionInterfaces.Proofs.Text.Join
import CollectionInterfaces.Proofs.Text.Utf8

/-!
# Paths that have bytes

A path can be named on a disk exactly if the null code point is not in it, and no surrogate is but
those that stand for bytes (`Disk.exists_pathBytes_iff`). A part of a path in front of it can be
named if the path can.
-/

namespace CollectionInterfaces

namespace CodePoint

variable {c : CodePoint}

/-- The name of a file can hold the code point. -/
def IsNameable (c : CodePoint) : Prop :=
  c ≠ .null ∧ (c.isSurrogate = false ∨ (Utf8.escapedByte c).isSome)

instance (c : CodePoint) : Decidable c.IsNameable := inferInstanceAs (Decidable (_ ∧ _))

/-- Only the null code point has a byte that is zero. -/
theorem zero_mem_utf8 : 0 ∈ c.utf8 ↔ c = .null := by
  have hlt := c.isLt
  have hzero {n : Nat} (h : n < 256) : (0 : UInt8) = n.toUInt8 ↔ n = 0 := by
    rw [← UInt8.toNat_inj, Utf8.toNat_toUInt8 h, eq_comm]
    rfl
  have hnull : c = .null ↔ c.val = 0 := ⟨fun h => h ▸ rfl, fun h => ext_val h⟩
  rw [hnull]
  unfold utf8
  dsimp only
  split
  · rw [List.mem_singleton, hzero (by omega)]
  split
  · simp only [List.mem_cons, List.not_mem_nil, or_false]
    rw [hzero (by omega), hzero (by omega)]
    omega
  split
  · simp only [List.mem_cons, List.not_mem_nil, or_false]
    rw [hzero (by omega), hzero (by omega), hzero (by omega)]
    omega
  · simp only [List.mem_cons, List.not_mem_nil, or_false]
    rw [hzero (by omega), hzero (by omega), hzero (by omega), hzero (by omega)]
    omega

theorem ne_zero_of_escapedByte {b : UInt8} (h : Utf8.escapedByte c = some b) : b ≠ 0 := by
  unfold Utf8.escapedByte at h
  split at h
  · rename_i hc
    simp only [Bool.and_eq_true, decide_eq_true_eq] at hc
    obtain rfl : (c.val - 0xDC00).toUInt8 = b := Option.some.inj h
    intro hzero
    have hval := congrArg UInt8.toNat hzero
    rw [Utf8.toNat_toUInt8 (by omega), UInt8.toNat_zero] at hval
    omega
  · cases h

end CodePoint

namespace Utf8

variable {t : Text} {position : Nat}

theorem exists_map_append_iff {r : Except EncodeError Bytes} {own : Bytes} :
    (∃ bytes, r.map (own ++ ·) = .ok bytes ∧ 0 ∉ bytes) ↔
      0 ∉ own ∧ ∃ bytes, r = .ok bytes ∧ 0 ∉ bytes := by
  constructor
  · intro ⟨bytes, hbytes, hzero⟩
    obtain ⟨more, hmore, rfl⟩ := map_eq_ok_iff.mp hbytes
    simp only [List.mem_append, not_or] at hzero
    exact ⟨hzero.1, more, hmore, hzero.2⟩
  · rintro ⟨hown, more, rfl, hmore⟩
    exact ⟨own ++ more, rfl, by simp [hown, hmore]⟩

/-- A text is the name of a file exactly if each of its code points can be in one. -/
theorem exists_encodeWith_iff :
    (∃ bytes, encodeWith escapedByte position t = .ok bytes ∧ 0 ∉ bytes) ↔
      ∀ c ∈ t, c.IsNameable := by
  induction t generalizing position with
  | nil => simp [encodeWith]
  | cons c rest ih =>
    rw [List.forall_mem_cons, ← @ih (position + 1), encodeWith]
    cases hc : c.isSurrogate with
    | false =>
      have hown : c.IsNameable ↔ 0 ∉ c.utf8 := by
        simp [CodePoint.IsNameable, hc, CodePoint.zero_mem_utf8]
      rw [hown]
      exact exists_map_append_iff
    | true =>
      cases hb : escapedByte c with
      | none =>
        have hown : ¬c.IsNameable := by simp [CodePoint.IsNameable, hc, hb]
        simp [hown]
      | some b =>
        have hnull : c ≠ .null := by rintro rfl; cases hc
        have hown : c.IsNameable ↔ 0 ∉ [b] := by
          simp [CodePoint.IsNameable, hnull, hb, (CodePoint.ne_zero_of_escapedByte hb).symm]
        rw [hown]
        exact @exists_map_append_iff _ [b]

theorem encodeWith_append {escape : CodePoint → Option UInt8} {s : Text} {bytes : Bytes}
    (h : encodeWith escape position (t ++ s) = .ok bytes) :
    ∃ own more, encodeWith escape position t = .ok own ∧ bytes = own ++ more := by
  induction t generalizing position bytes with
  | nil => exact ⟨[], bytes, rfl, rfl⟩
  | cons c rest ih =>
    -- the bytes of `c`, if it has any, in front of those of the rest
    have hfront (first : Bytes)
        (h : (encodeWith escape (position + 1) (rest ++ s)).map (first ++ ·) = .ok bytes) :
        ∃ own more, (encodeWith escape (position + 1) rest).map (first ++ ·) = .ok own ∧
          bytes = own ++ more := by
      obtain ⟨last, hrest, rfl⟩ := map_eq_ok_iff.mp h
      obtain ⟨own, more, hown, rfl⟩ := ih hrest
      exact ⟨first ++ own, more, map_eq_ok_iff.mpr ⟨own, hown, rfl⟩,
        (List.append_assoc ..).symm⟩
    rw [List.cons_append, encodeWith] at h
    rw [encodeWith]
    split at h
    · rename_i hc
      rw [if_pos hc]
      split at h
      · rename_i b hb
        exact hfront [b] h
      · cases h
    · rename_i hc
      rw [if_neg hc]
      exact hfront c.utf8 h

end Utf8

/-- The path can be named on a disk. -/
def Path.IsNameable (p : Path) : Prop := ∀ c ∈ p.toText, c.IsNameable

instance (p : Path) : Decidable p.IsNameable := inferInstanceAs (Decidable (∀ c ∈ _, _))

/-- The text of a directory starts the text of what is in it, unless the path starts here. -/
theorem Path.toText_parent (p : Path) :
    p.parent.toText = dot ∨ p.parent.toText <+: p.toText := by
  unfold toText parent
  dsimp only
  split
  · exact .inl rfl
  · rename_i hparent
    right
    rw [if_neg fun h => hparent ⟨h.1, by simp [h.2]⟩]
    exact (List.prefix_append_right_inj _).mpr (Text.join_prefix_of_prefix (List.dropLast_prefix _))

theorem Path.IsNameable.parent {p : Path} (h : p.IsNameable) : p.parent.IsNameable := by
  intro c hc
  rcases p.toText_parent with hdot | hstart
  · rw [hdot] at hc
    exact (by decide : ∀ c ∈ dot, c.IsNameable) c hc
  · exact h c (hstart.subset hc)

namespace Disk

variable {p : Path}

/-- The bytes of a path are those of its text without a zero among them. -/
theorem pathBytes_eq_ok_iff {bytes : Bytes} :
    pathBytes p = .ok bytes ↔ Utf8.encodeName p.toText = .ok bytes ∧ 0 ∉ bytes := by
  unfold pathBytes
  cases Utf8.encodeName p.toText with
  | error e => simp
  | ok own =>
    by_cases hzero : 0 ∈ own
    · simp only [List.contains_eq_mem, hzero, decide_true, if_true, Except.ok.injEq]
      exact ⟨nofun, fun ⟨heq, hnot⟩ => absurd (heq ▸ hzero) hnot⟩
    · simp only [List.contains_eq_mem, hzero, decide_false, Bool.false_eq_true, if_false,
        Except.ok.injEq]
      exact ⟨fun heq => ⟨heq, heq ▸ hzero⟩, And.left⟩

theorem exists_pathBytes_iff : (∃ bytes, pathBytes p = .ok bytes) ↔ p.IsNameable := by
  simp only [pathBytes_eq_ok_iff]
  exact Utf8.exists_encodeWith_iff

/-- The directory of a path has no more bytes than the path. -/
theorem length_pathBytes_parent {bytes : Bytes} (h : pathBytes p = .ok bytes) :
    ∃ own, pathBytes p.parent = .ok own ∧ own.length ≤ max 1 bytes.length := by
  obtain ⟨own, hown⟩ := exists_pathBytes_iff.mpr (exists_pathBytes_iff.mp ⟨bytes, h⟩).parent
  refine ⟨own, hown, ?_⟩
  obtain ⟨hencoded, -⟩ := pathBytes_eq_ok_iff.mp h
  obtain ⟨hencodedParent, -⟩ := pathBytes_eq_ok_iff.mp hown
  rcases p.toText_parent with hdot | ⟨after, hafter⟩
  · rw [hdot] at hencodedParent
    obtain rfl : [0x2E] = own := Except.ok.inj hencodedParent
    exact Nat.le_max_left 1 _
  · rw [← hafter] at hencoded
    obtain ⟨first, more, hfirst, rfl⟩ := Utf8.encodeWith_append hencoded
    obtain rfl : own = first := Except.ok.inj (hencodedParent.symm.trans hfirst)
    rw [List.length_append]
    omega

theorem exists_pathBytes_error_iff : (∃ fault, pathBytes p = .error fault) ↔ ¬p.IsNameable := by
  rw [← exists_pathBytes_iff]
  cases pathBytes p <;> simp

end Disk

end CollectionInterfaces
