import ContainerKeys.Proofs.Names

/-!
# Characters and their bytes

The bytes of a text are read as its characters. Bytes are read in parts: two parts are read apart just as
they are read together if the second one does not go on with a character of the first. So it is in
particular at every line end and at the start of every text.

* `Utf8.decodeLossy_encode_append` — the bytes of a text are read as that text.
* `Utf8.decodeLossy_append` — parts of bytes are read apart.
* `Utf8.decodeLossy_append_of_decode` — bytes that are a text are read apart from what follows.
* `Utf8.exists_byte_of_mem_decodeLossy` — only an ASCII byte is read as an ASCII character.
-/

namespace ContainerKeys.Utf8

/-! ## Bytes of a text -/

theorem toList_loop_eq (bytes : ByteArray) (i : Nat) (read : Bytes) :
    ByteArray.toList.loop bytes i read = read.reverse ++ bytes.data.toList.drop i := by
  fun_induction ByteArray.toList.loop bytes i read with
  | case1 i read inside ih =>
    have inside' : i < bytes.data.toList.length := inside
    have here : bytes.get! i = bytes.data.toList[i] := by
      show bytes.data[i]! = _
      rw [getElem!_pos bytes.data i inside, Array.getElem_toList]
    rw [ih, List.reverse_cons, List.append_assoc, List.drop_eq_getElem_cons inside', here]
    rfl
  | case2 i read outside =>
    rw [List.drop_eq_nil_of_le (Nat.not_lt.mp outside), List.append_nil]

theorem encode_ofList (cs : List Char) : encode (String.ofList cs) = cs.flatMap String.utf8EncodeChar := by
  show ByteArray.toList.loop (cs.flatMap String.utf8EncodeChar).toByteArray 0 [] = _
  rw [toList_loop_eq, List.data_toByteArray]
  simp

theorem encode_ofList_append (cs ds : List Char) :
    encode (String.ofList (cs ++ ds)) = encode (String.ofList cs) ++ encode (String.ofList ds) := by
  rw [encode_ofList, encode_ofList, encode_ofList, List.flatMap_append]

/-! ## Bytes of a character -/

theorem lead?_two {b : Nat} (h : 0xC2 ≤ b ∧ b < 0xE0) : lead? b = some ⟨1, 0x80, 0xBF, b - 0xC0⟩ := by
  unfold lead?
  rw [if_neg (by omega), if_neg (by omega), if_pos (by omega)]

theorem lead?_three {b : Nat} (h : 0xE0 ≤ b ∧ b < 0xF0) :
    lead? b = some ⟨2, if b = 0xE0 then 0xA0 else 0x80, if b = 0xED then 0x9F else 0xBF, b - 0xE0⟩ := by
  unfold lead?
  rw [if_neg (by omega), if_neg (by omega), if_neg (by omega)]
  by_cases first : b = 0xE0
  · simp [first]
  · by_cases surrogate : b = 0xED
    · simp [surrogate]
    · simp [first, surrogate, h.2]

theorem lead?_four {b : Nat} (h : 0xF0 ≤ b ∧ b < 0xF5) :
    lead? b = some ⟨3, if b = 0xF0 then 0x90 else 0x80, if b = 0xF4 then 0x8F else 0xBF, b - 0xF0⟩ := by
  unfold lead?
  rw [if_neg (by omega), if_neg (by omega), if_neg (by omega), if_neg (by rw [beq_iff_eq]; omega),
    if_neg (by rw [beq_iff_eq]; omega), if_neg (by omega)]
  by_cases first : b = 0xF0
  · simp [first]
  · by_cases last : b = 0xF4
    · simp [last]
    · have middle : b < 0xF4 := by omega
      simp [first, last, middle]

theorem follow_cons {first b : UInt8} {more low high bits width : Nat} {rest : Bytes}
    (bounded : low ≤ b.toNat ∧ b.toNat ≤ high) :
    follow first (more + 1) low high bits width (b :: rest) =
      follow first more 0x80 0xBF (bits * 64 + b.toNat % 64) (width + 1) rest := by
  rw [follow, if_pos (by simpa using bounded)]

theorem toNat_ofNat_of_lt {n : Nat} (h : n < 256) : (UInt8.ofNat n).toNat = n := by
  rw [UInt8.toNat_ofNat']
  omega

-- In the next three, `value` puts the digits of the code point together again; all else are bounds.

theorem piece_two {v : Nat} (h : 0x80 ≤ v ∧ v < 0x800) (rest : Bytes) :
    piece (.ofNat (v / 64 % 32 + 192)) (.ofNat (v % 64 + 128) :: rest) = .char (Char.ofNat v) 2 := by
  have lead : (UInt8.ofNat (v / 64 % 32 + 192)).toNat = v / 64 % 32 + 192 := toNat_ofNat_of_lt (by omega)
  have last : (UInt8.ofNat (v % 64 + 128)).toNat = v % 64 + 128 := toNat_ofNat_of_lt (by omega)
  have value : (v / 64 % 32 + 192 - 0xC0) * 64 + (v % 64 + 128) % 64 = v := by omega
  unfold piece
  rw [lead, lead?_two (by omega)]
  dsimp only
  rw [follow_cons (by omega), follow, last, value]

theorem piece_three {v : Nat} (h : 0x800 ≤ v ∧ v < 0x10000) (valid : v < 0xD800 ∨ 0xDFFF < v)
    (rest : Bytes) :
    piece (.ofNat (v / 4096 % 16 + 224)) (.ofNat (v / 64 % 64 + 128) :: .ofNat (v % 64 + 128) :: rest) =
      .char (Char.ofNat v) 3 := by
  have lead : (UInt8.ofNat (v / 4096 % 16 + 224)).toNat = v / 4096 % 16 + 224 := toNat_ofNat_of_lt (by omega)
  have middle : (UInt8.ofNat (v / 64 % 64 + 128)).toNat = v / 64 % 64 + 128 := toNat_ofNat_of_lt (by omega)
  have last : (UInt8.ofNat (v % 64 + 128)).toNat = v % 64 + 128 := toNat_ofNat_of_lt (by omega)
  have value : ((v / 4096 % 16 + 224 - 0xE0) * 64 + (v / 64 % 64 + 128) % 64) * 64 +
      (v % 64 + 128) % 64 = v := by
    omega
  unfold piece
  rw [lead, lead?_three (by omega)]
  dsimp only
  rw [follow_cons (by split_ifs <;> omega), follow_cons (by omega), follow, middle, last, value]

theorem piece_four {v : Nat} (h : 0x10000 ≤ v ∧ v < 0x110000) (rest : Bytes) :
    piece (.ofNat (v / 262144 % 8 + 240))
        (.ofNat (v / 4096 % 64 + 128) :: .ofNat (v / 64 % 64 + 128) :: .ofNat (v % 64 + 128) :: rest) =
      .char (Char.ofNat v) 4 := by
  have lead : (UInt8.ofNat (v / 262144 % 8 + 240)).toNat = v / 262144 % 8 + 240 := toNat_ofNat_of_lt (by omega)
  have second : (UInt8.ofNat (v / 4096 % 64 + 128)).toNat = v / 4096 % 64 + 128 := toNat_ofNat_of_lt (by omega)
  have third : (UInt8.ofNat (v / 64 % 64 + 128)).toNat = v / 64 % 64 + 128 := toNat_ofNat_of_lt (by omega)
  have last : (UInt8.ofNat (v % 64 + 128)).toNat = v % 64 + 128 := toNat_ofNat_of_lt (by omega)
  have value : (((v / 262144 % 8 + 240 - 0xF0) * 64 + (v / 4096 % 64 + 128) % 64) * 64 +
      (v / 64 % 64 + 128) % 64) * 64 + (v % 64 + 128) % 64 = v := by
    omega
  unfold piece
  rw [lead, lead?_four (by omega)]
  dsimp only
  rw [follow_cons (by split_ifs <;> omega), follow_cons (by omega), follow_cons (by omega), follow, second,
    third, last, value]

/-- The bytes of a character are read as that character, whatever follows them. -/
theorem exists_piece_encodeChar (c : Char) :
    ∃ b more, String.utf8EncodeChar c = b :: more ∧
      ∀ rest, piece b (more ++ rest) = .char c (more.length + 1) := by
  have valid : c.val.toNat < 0xD800 ∨ 0xDFFF < c.val.toNat ∧ c.val.toNat < 0x110000 := c.valid
  have back : Char.ofNat c.val.toNat = c := Char.ofNat_toNat c
  simp only [String.utf8EncodeChar]
  generalize c.val.toNat = v at valid back ⊢
  subst back
  split_ifs with one two three
  · refine ⟨_, _, rfl, fun rest => ?_⟩
    have byte : (UInt8.ofNat v).toNat = v := toNat_ofNat_of_lt (by omega)
    rw [piece_of_lt (by omega), byte]
    rfl
  · exact ⟨_, _, rfl, piece_two (by omega)⟩
  · exact ⟨_, _, rfl, piece_three (by omega) (by omega)⟩
  · exact ⟨_, _, rfl, piece_four (by omega)⟩

theorem decodeLossy_cons (b : UInt8) (rest : Bytes) :
    decodeLossy (b :: rest) =
      (piece b rest).shown :: decodeLossy (rest.drop ((piece b rest).width - 1)) := by
  rw [decodeLossy, pieces_cons, List.map_cons, ← decodeLossy]

@[simp] theorem decodeLossy_nil : decodeLossy [] = [] := by
  rw [decodeLossy, pieces, List.map_nil]

theorem decodeLossy_encodeChar_append (c : Char) (rest : Bytes) :
    decodeLossy (String.utf8EncodeChar c ++ rest) = c :: decodeLossy rest := by
  rcases exists_piece_encodeChar c with ⟨b, more, spelled, read⟩
  rw [spelled, List.cons_append, decodeLossy_cons, read]
  show c :: decodeLossy ((more ++ rest).drop (more.length + 1 - 1)) = _
  rw [Nat.add_sub_cancel, List.drop_left]

/-- The bytes of a text are read as that text, whatever follows them. -/
theorem decodeLossy_encode_append (cs : List Char) (rest : Bytes) :
    decodeLossy (encode (String.ofList cs) ++ rest) = cs ++ decodeLossy rest := by
  rw [encode_ofList]
  induction cs with
  | nil => rfl
  | cons c cs ih =>
    rw [List.flatMap_cons, List.append_assoc, decodeLossy_encodeChar_append, ih, List.cons_append]

theorem decodeLossy_encode (s : String) : decodeLossy (encode s) = s.toList := by
  have whole := decodeLossy_encode_append s.toList []
  rwa [List.append_nil, decodeLossy_nil, List.append_nil, String.ofList_toList] at whole

/-- Only a character itself is written with its ASCII byte. -/
theorem toNat_of_mem_encodeChar {c : Char} {b : UInt8} (h : b ∈ String.utf8EncodeChar c)
    (ascii : b.toNat < 0x80) : c.toNat = b.toNat := by
  simp only [String.utf8EncodeChar] at h
  show c.val.toNat = _
  generalize c.val.toNat = v at h ⊢
  split_ifs at h with one two three
  · rw [List.mem_singleton.mp h, toNat_ofNat_of_lt (by omega)]
  -- all bytes of a longer character are outside of ASCII
  all_goals
    simp only [List.mem_cons, List.not_mem_nil, or_false] at h
    rcases h with rfl | h
    · rw [toNat_ofNat_of_lt (by omega)] at ascii
      omega
  · rw [h, toNat_ofNat_of_lt (by omega)] at ascii
    omega
  · rcases h with rfl | rfl <;> rw [toNat_ofNat_of_lt (by omega)] at ascii <;> omega
  · rcases h with rfl | rfl | rfl <;> rw [toNat_ofNat_of_lt (by omega)] at ascii <;> omega

/-! ## Reading in parts -/

/-- The byte goes on with a character. -/
def Continues (b : UInt8) : Prop :=
  0x80 ≤ b.toNat ∧ b.toNat ≤ 0xBF

/-- The bytes do not go on with a character that stands before them. -/
def Apart (after : Bytes) : Prop :=
  ∀ b ∈ after.head?, ¬ Continues b

theorem apart_cons_of_lt {b : UInt8} (ascii : b.toNat < 0x80) (rest : Bytes) : Apart (b :: rest) := by
  rintro _ ⟨⟩ continues
  exact Nat.not_le_of_lt ascii continues.1

section

variable {first b : UInt8} {more low high bits width w offset : Nat} {bytes rest : Bytes} {c : Char}

theorem follow_append (continues : 0x80 ≤ low ∧ high ≤ 0xBF) {after : Bytes} (apart : Apart after) :
    (follow first more low high bits width (bytes ++ after)).shown =
        (follow first more low high bits width bytes).shown ∧
      (follow first more low high bits width (bytes ++ after)).width =
        (follow first more low high bits width bytes).width := by
  fun_induction follow first more low high bits width bytes with
  | case1 =>
    rw [follow]
    exact ⟨rfl, rfl⟩
  -- the bytes end inside of the character, so the next byte breaks it off
  | case2 low high bits width more =>
    rw [List.nil_append]
    cases after with
    | nil =>
      rw [follow]
      exact ⟨rfl, rfl⟩
    | cons b rest =>
      have outside : ¬ (decide (low ≤ b.toNat) && decide (b.toNat ≤ high)) = true := by
        intro bounded
        rw [Bool.and_eq_true, decide_eq_true_eq, decide_eq_true_eq] at bounded
        exact apart b rfl ⟨by omega, by omega⟩
      rw [follow, if_neg outside]
      exact ⟨rfl, rfl⟩
  | case3 low high bits width more b rest bounded ih =>
    rw [List.cons_append, follow, if_pos bounded]
    exact ih ⟨Nat.le_refl _, Nat.le_refl _⟩
  | case4 low high bits width more b rest outside =>
    rw [List.cons_append, follow, if_neg outside]
    exact ⟨rfl, rfl⟩

theorem piece_append (b : UInt8) (rest : Bytes) {after : Bytes} (apart : Apart after) :
    (piece b (rest ++ after)).shown = (piece b rest).shown ∧
      (piece b (rest ++ after)).width = (piece b rest).width := by
  by_cases ascii : b.toNat < 0x80
  · rw [piece_of_lt ascii, piece_of_lt ascii]
    exact ⟨rfl, rfl⟩
  · unfold piece
    cases called : lead? b.toNat with
    | none => exact ⟨rfl, rfl⟩
    | some l =>
      rcases bounds_of_lead? called (Nat.not_lt.mp ascii) with ⟨_, _, continues, _⟩
      exact follow_append continues apart

/-- Bytes are read in parts, if the second part does not go on with a character of the first. -/
theorem decodeLossy_append {after : Bytes} (apart : Apart after) :
    decodeLossy (bytes ++ after) = decodeLossy bytes ++ decodeLossy after := by
  fun_induction pieces bytes with
  | case1 => rw [decodeLossy_nil, List.nil_append, List.nil_append]
  | case2 b rest p ih =>
    rcases piece_append b rest apart with ⟨shown, width⟩
    have fits : (piece b rest).width - 1 ≤ rest.length := by
      have := width_piece_le b rest
      omega
    rw [List.cons_append, decodeLossy_cons, decodeLossy_cons, shown, width,
      List.drop_append_of_le_length fits, List.cons_append, ih]

theorem follow_append_of_char (h : follow first more low high bits width bytes = .char c w)
    (after : Bytes) : follow first more low high bits width (bytes ++ after) = .char c w := by
  fun_induction follow first more low high bits width bytes with
  | case1 =>
    rw [follow]
    exact h
  | case2 => cases h
  | case3 low high bits width more b rest bounded ih =>
    rw [List.cons_append, follow, if_pos bounded]
    exact ih h
  | case4 => cases h

theorem piece_append_of_char (h : piece b rest = .char c w) (after : Bytes) :
    piece b (rest ++ after) = .char c w := by
  unfold piece at h ⊢
  cases called : lead? b.toNat with
  | none =>
    rw [called] at h
    cases h
  | some l =>
    rw [called] at h
    exact follow_append_of_char h after

/-- The first byte of a character does not go on with another one. -/
theorem not_continues_of_piece (h : piece b rest = .char c w) : ¬ Continues b := by
  intro continues
  unfold piece lead? at h
  rw [if_neg (Nat.not_lt.mpr continues.1), if_pos (Nat.lt_of_le_of_lt continues.2 (by decide))] at h
  cases h

theorem shown_of_charsFrom {ps : List Piece} {cs : List Char} (h : charsFrom offset ps = .ok cs) :
    ps.map Piece.shown = cs ∧ ∀ p ∈ ps, ∃ c w, p = .char c w := by
  induction ps generalizing offset cs with
  | nil =>
    cases h
    exact ⟨rfl, List.forall_mem_nil _⟩
  | cons p ps ih =>
    cases p with
    | broken lead width flaw => cases h
    | char c w =>
      rcases except_map_eq_ok h with ⟨later, read, rfl⟩
      rcases ih read with ⟨shown, whole⟩
      exact ⟨congrArg _ shown, List.forall_mem_cons.mpr ⟨⟨c, w, rfl⟩, whole⟩⟩

/-- Bytes that are a text are read as that text, broken or not. -/
theorem decodeLossy_of_decode {cs : List Char} (h : decode bytes = .ok cs) : decodeLossy bytes = cs :=
  (shown_of_charsFrom h).1

/-- Bytes that are a text are read apart from all that follows. -/
theorem decodeLossy_append_of_decode {cs : List Char} (h : decode bytes = .ok cs) (after : Bytes) :
    decodeLossy (bytes ++ after) = cs ++ decodeLossy after := by
  rw [← decodeLossy_of_decode h]
  -- the induction needs of `h` only that no piece is broken
  have whole := (shown_of_charsFrom h).2
  clear h
  fun_induction pieces bytes with
  | case1 => rw [decodeLossy_nil, List.nil_append, List.nil_append]
  | case2 b rest p ih =>
    rcases List.forall_mem_cons.mp whole with ⟨⟨c, w, first⟩, later⟩
    have same : piece b (rest ++ after) = piece b rest := (piece_append_of_char first after).trans first.symm
    have fits : (piece b rest).width - 1 ≤ rest.length := by
      have := width_piece_le b rest
      omega
    rw [List.cons_append, decodeLossy_cons, decodeLossy_cons, same, List.drop_append_of_le_length fits,
      ih later, List.cons_append]

theorem apart_append_of_decode {cs : List Char} (h : decode bytes = .ok cs) (some : bytes ≠ [])
    (after : Bytes) : Apart (bytes ++ after) := by
  have whole := (shown_of_charsFrom h).2
  cases bytes with
  | nil => exact absurd rfl some
  | cons b rest =>
    rw [pieces_cons] at whole
    rcases (List.forall_mem_cons.mp whole).1 with ⟨c, w, first⟩
    rintro _ ⟨⟩
    exact not_continues_of_piece first

/-- Only an ASCII byte is read as an ASCII character. -/
theorem exists_byte_of_mem_decodeLossy (h : c ∈ decodeLossy bytes) (ascii : c.toNat < 0x80) :
    ∃ b ∈ bytes, b.toNat = c.toNat := by
  fun_induction pieces bytes with
  | case1 =>
    rw [decodeLossy_nil] at h
    cases h
  | case2 b rest p ih =>
    rw [decodeLossy_cons] at h
    rcases List.mem_cons.mp h with rfl | later
    · cases first : piece b rest with
      -- a broken piece is shown as the replacement character
      | broken lead width flaw =>
        rw [first] at ascii
        change replacement.toNat < 0x80 at ascii
        exact absurd ascii (by decide)
      | char d w =>
        rw [first] at ascii
        have small := lt_of_piece first ascii
        rw [piece_of_lt small] at first
        cases first
        refine ⟨b, List.mem_cons_self, ?_⟩
        have valid : b.toNat.isValidChar := .inl (by omega)
        rw [Piece.shown, Char.ofNat, dif_pos valid]
        rfl
    · rcases ih later with ⟨d, member, same⟩
      exact ⟨d, List.mem_cons_of_mem b (List.mem_of_mem_drop member), same⟩

end

end ContainerKeys.Utf8
