import ContainerKeys.Proofs.Positions
import ContainerKeys.Text.ByteMark
import Mathlib.Algebra.Group.Nat.Defs
import Mathlib.Tactic.SplitIfs

/-!
# Names that are spelled out

A text may spell out bytes of a name one by one. No such text stands for a name of ASCII characters, so
none stands for `.` or `..`: bytes that are spelled out are no ASCII bytes, and only ASCII bytes make ASCII
characters, since overlong forms are refused.

* `Utf8.lt_of_charsFrom`, `Utf8.decode_asciiBytes` — the bytes of ASCII characters.
* `Text.toList_nameOf_of_ascii` — the texts that stand for a name of ASCII characters.
-/

namespace ContainerKeys

theorem except_map_eq_ok {ε α β : Type} {x : Except ε α} {f : α → β} {b : β} (h : x.map f = .ok b) :
    ∃ a, x = .ok a ∧ b = f a := by
  cases x with
  | error => cases h
  | ok a =>
    cases h
    exact ⟨a, rfl, rfl⟩

/-! ## Bytes of a character -/

namespace Utf8

variable {first : UInt8} {more low high bits width w offset : Nat} {bytes : Bytes} {c : Char}

/-- Bytes that follow fill in the lower digits of a code point. -/
theorem value_of_follow (h : follow first more 0x80 0xBF bits width bytes = .char c w) :
    ∃ v, bits * 64 ^ more ≤ v ∧ v < (bits + 1) * 64 ^ more ∧ c = Char.ofNat v := by
  induction more generalizing bits width bytes with
  | zero =>
    cases h
    exact ⟨bits, by omega, by omega, rfl⟩
  | succ more ih =>
    cases bytes with
    | nil => cases h
    | cons b rest =>
      rw [follow] at h
      split at h
      · rcases ih h with ⟨v, lower, upper, value⟩
        have digit : b.toNat % 64 < 64 := Nat.mod_lt _ (by decide)
        refine ⟨v, ?_, ?_, value⟩
        · rw [Nat.pow_succ', ← Nat.mul_assoc]
          exact Nat.le_trans (Nat.mul_le_mul_right _ (by omega)) lower
        · rw [Nat.pow_succ', ← Nat.mul_assoc]
          exact Nat.lt_of_lt_of_le upper (Nat.mul_le_mul_right _ (by omega))
      · cases h

/-- The bounds of the second byte bound the code point. -/
theorem value_of_lead (h : follow first (more + 1) low high bits width bytes = .char c w)
    (continues : 0x80 ≤ low ∧ high ≤ 0xBF) :
    ∃ v, (bits * 64 + (low - 0x80)) * 64 ^ more ≤ v ∧ v < (bits * 64 + (high - 0x80) + 1) * 64 ^ more ∧
      c = Char.ofNat v := by
  cases bytes with
  | nil => cases h
  | cons b rest =>
    rw [follow] at h
    split at h
    · rename_i bounded
      rw [Bool.and_eq_true, decide_eq_true_eq, decide_eq_true_eq] at bounded
      rcases value_of_follow h with ⟨v, lower, upper, value⟩
      refine ⟨v, ?_, ?_, value⟩
      · exact Nat.le_trans (Nat.mul_le_mul_right _ (by omega)) lower
      · exact Nat.lt_of_lt_of_le upper (Nat.mul_le_mul_right _ (by omega))
    · cases h

/-- What a first byte outside of ASCII calls for: more bytes, and a code point that is neither an ASCII
character nor a surrogate nor too large. -/
theorem bounds_of_lead? {b : Nat} {l : Lead} (h : lead? b = some l) (large : 0x80 ≤ b) :
    ∃ more, l.more = more + 1 ∧ (0x80 ≤ l.low ∧ l.high ≤ 0xBF) ∧
      0x80 ≤ (l.bits * 64 + (l.low - 0x80)) * 64 ^ more ∧
      ((l.bits * 64 + (l.high - 0x80) + 1) * 64 ^ more ≤ 0xD800 ∨
        0xE000 ≤ (l.bits * 64 + (l.low - 0x80)) * 64 ^ more ∧
          (l.bits * 64 + (l.high - 0x80) + 1) * 64 ^ more ≤ 0x110000) := by
  unfold lead? at h
  rw [if_neg (Nat.not_lt.mpr large)] at h
  simp only [beq_iff_eq] at h
  split_ifs at h with low two first surrogate three second four last
  · cases h
    exact ⟨0, rfl, ⟨Nat.le_refl _, Nat.le_refl _⟩, by dsimp only; omega, by dsimp only; omega⟩
  · cases h
    exact ⟨1, rfl, by decide, by decide, by decide⟩
  · cases h
    exact ⟨1, rfl, by decide, by decide, by decide⟩
  · cases h
    exact ⟨1, rfl, ⟨Nat.le_refl _, Nat.le_refl _⟩, by dsimp only; omega, by dsimp only; omega⟩
  · cases h
    exact ⟨2, rfl, by decide, by decide, by decide⟩
  · cases h
    exact ⟨2, rfl, ⟨Nat.le_refl _, Nat.le_refl _⟩, by dsimp only; omega, by dsimp only; omega⟩
  · cases h
    exact ⟨2, rfl, by decide, by decide, by decide⟩

/-- Only an ASCII byte makes an ASCII character. -/
theorem lt_of_piece {b : UInt8} {rest : Bytes} (h : piece b rest = .char c w) (ascii : c.toNat < 0x80) :
    b.toNat < 0x80 := by
  by_contra large
  unfold piece at h
  cases called : lead? b.toNat with
  | none =>
    rw [called] at h
    cases h
  | some l =>
    rw [called] at h
    rcases bounds_of_lead? called (Nat.not_lt.mp large) with ⟨more, count, continues, low, valid⟩
    dsimp only at h
    rw [count] at h
    rcases value_of_lead h continues with ⟨v, lower, upper, rfl⟩
    have isValid : v.isValidChar := by
      unfold Nat.isValidChar
      omega
    rw [Char.ofNat, dif_pos isValid] at ascii
    change v < 0x80 at ascii
    omega

theorem piece_of_lt {b : UInt8} {rest : Bytes} (h : b.toNat < 0x80) :
    piece b rest = .char (Char.ofNat b.toNat) 1 := by
  unfold piece lead?
  rw [if_pos h]
  rfl

/-- Bytes that decode to ASCII characters are ASCII bytes. -/
theorem lt_of_charsFrom {cs : List Char} (h : charsFrom offset (pieces bytes) = .ok cs)
    (ascii : ∀ c ∈ cs, c.toNat < 0x80) : ∀ b ∈ bytes, b.toNat < 0x80 := by
  induction bytes generalizing offset cs with
  | nil => simp
  | cons b rest ih =>
    rw [pieces_cons] at h
    cases first : piece b rest with
    | broken lead width flaw =>
      rw [first] at h
      cases h
    | char c width =>
      rw [first, charsFrom] at h
      rcases except_map_eq_ok h with ⟨cs', later, rfl⟩
      have byte := lt_of_piece first (ascii c List.mem_cons_self)
      have one : width = 1 := by
        rw [piece_of_lt byte] at first
        cases first
        rfl
      -- an ASCII character is one byte wide, so the next piece starts right behind it
      rw [one] at later
      have rest := ih later fun d hd => ascii d (List.mem_cons_of_mem c hd)
      exact List.forall_mem_cons.mpr ⟨byte, rest⟩

theorem charsFrom_of_ascii (ascii : ∀ b ∈ bytes, b.toNat < 0x80) (offset : Nat) :
    charsFrom offset (pieces bytes) = .ok (bytes.map fun b => Char.ofNat b.toNat) := by
  induction bytes generalizing offset with
  | nil => simp [pieces, charsFrom]
  | cons b rest ih =>
    rw [List.forall_mem_cons] at ascii
    rw [pieces_cons, piece_of_lt ascii.1]
    show (charsFrom (offset + 1) (pieces rest)).map _ = _
    rw [ih ascii.2]
    rfl

/-- ASCII bytes are one character each. -/
theorem decode_of_ascii (ascii : ∀ b ∈ bytes, b.toNat < 0x80) :
    decode bytes = .ok (bytes.map fun b => Char.ofNat b.toNat) :=
  charsFrom_of_ascii ascii 0

/-- The bytes of a text of ASCII characters. -/
def asciiBytes (s : String) : Bytes :=
  s.toList.map fun c => UInt8.ofNat c.toNat

section

variable {s : String} (ascii : s.toList.all (fun c => c.toNat < 0x80) = true)

include ascii

theorem toNat_ofNat_of_mem (known : c ∈ s.toList) :
    c.toNat < 0x80 ∧ (UInt8.ofNat c.toNat).toNat = c.toNat := by
  have small : c.toNat < 0x80 := of_decide_eq_true (List.all_eq_true.mp ascii c known)
  refine ⟨small, ?_⟩
  rw [UInt8.toNat_ofNat']
  omega

theorem lt_of_mem_asciiBytes : ∀ b ∈ asciiBytes s, b.toNat < 0x80 := by
  intro b member
  rcases List.mem_map.mp member with ⟨c, known, rfl⟩
  rcases toNat_ofNat_of_mem ascii known with ⟨small, same⟩
  rw [same]
  exact small

theorem decode_asciiBytes : decode (asciiBytes s) = .ok s.toList := by
  have same : ∀ c ∈ s.toList, Char.ofNat (UInt8.ofNat c.toNat).toNat = c := by
    intro c known
    rw [(toNat_ofNat_of_mem ascii known).2, Char.ofNat_toNat]
  rw [decode_of_ascii (lt_of_mem_asciiBytes ascii), asciiBytes, List.map_map]
  exact congrArg _ ((List.map_congr_left same).trans (List.map_id _))

end

end Utf8

/-! ## Texts with marks -/

namespace Text

/-- A text that stands for a name of ASCII characters is that name: no byte of it is spelled out. -/
theorem toList_nameOf_of_ascii {cs : List Char} (ascii : ∀ c ∈ (nameOf cs).toList, c.toNat < 0x80) :
    (nameOf cs).toList = cs := by
  unfold nameOf at ascii ⊢
  split at ascii
  · rename_i marked
    rw [if_pos marked]
    split at ascii
    · rename_i name decoded
      rcases List.any_eq_true.mp marked with ⟨c, hc, mark⟩
      rcases Option.isSome_iff_exists.mp mark with ⟨b, spelled⟩
      have bytes : b ∈ cs.flatMap bytesOf := by
        refine List.mem_flatMap.mpr ⟨c, hc, ?_⟩
        rw [bytesOf, spelled]
        exact List.mem_singleton_self b
      rw [String.toList_ofList] at ascii
      have small := Utf8.lt_of_charsFrom decoded ascii b bytes
      -- only bytes from `0x80` on have marks
      unfold markedByte? at spelled
      split at spelled
      · rename_i range
        rw [← Option.some.inj spelled, UInt8.toNat_ofNat'] at small
        omega
      · cases spelled
    · exact String.toList_ofList
  · rename_i plain
    rw [if_neg plain, String.toList_ofList]

end Text

end ContainerKeys
