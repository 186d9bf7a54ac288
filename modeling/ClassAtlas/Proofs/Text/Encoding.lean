import ClassAtlas.Text.Utf8

/-! Texts and their UTF-8 bytes.

The bytes of a text are read back as the text, strictly (`decode?_encode`) and leniently
(`decodeLossy_encode`), so texts with the same bytes are the same (`encode_injective`). Bytes that are
read without a replacement are those of the text (`encode_decodeLossy`). A byte below 128 stands for the
character of that number wherever it occurs (`mem_encode`). -/
namespace ClassAtlas.Text.Utf8

/-! ### Groups -/

/-- The only group with a byte below 128 is that byte alone. -/
theorem mem_encodeChar {b : UInt8} (hb : b.toNat < 128) (c : Char) :
    b ∈ String.utf8EncodeChar c ↔ c.toNat = b.toNat := by
  have hc : c.val.toNat = c.toNat := rfl
  simp only [String.utf8EncodeChar, hc]
  generalize c.toNat = n
  repeat' split
  all_goals
    simp only [List.mem_cons, List.not_mem_nil, or_false, ← UInt8.toNat_inj, UInt8.toNat_ofNat']
    omega

theorem encodeChar_ascii {c : Char} (h : c.toNat < 128) : String.utf8EncodeChar c = [UInt8.ofNat c.toNat] := by
  have hc : c.val.toNat ≤ 127 := Nat.le_of_lt_succ h
  simp only [String.utf8EncodeChar, if_pos hc]
  rfl

/-- A group is read as its character, whatever follows. -/
theorem group?_encodeChar (c : Char) (rest : Bytes) :
    group? (String.utf8EncodeChar c ++ rest) = some (c, (String.utf8EncodeChar c).length) := by
  have hvalid := c.valid
  simp only [UInt32.isValidChar, Nat.isValidChar] at hvalid
  have hc : c.val.toNat = c.toNat := rfl
  have hof : Char.ofNat c.toNat = c := Char.ofNat_toNat c
  simp only [String.utf8EncodeChar]
  rw [hc] at hvalid ⊢
  generalize c.toNat = n at *
  subst hof
  have hcontinues : ∀ k, isContinuation (UInt8.ofNat (k % 64 + 128)) = true := by
    intro k
    simp only [isContinuation, UInt8.toNat_ofNat', beq_iff_eq]
    omega
  repeat' split
  · have hbyte : n % 2 ^ 8 = n := by omega
    simp only [group?, List.cons_append, List.nil_append, UInt8.toNat_ofNat', hbyte]
    rw [if_pos (by omega)]
    rfl
  · have hfirst : (n / 64 % 32 + 192) % 2 ^ 8 = n / 64 + 192 := by omega
    have hvalue : (n / 64 + 192) % 32 * 64 + (n % 64 + 128) % 2 ^ 8 % 64 = n := by omega
    simp only [group?, List.cons_append, List.nil_append, UInt8.toNat_ofNat', hcontinues, hfirst, hvalue]
    rw [if_neg (by omega), if_neg (by decide), if_pos (by simp; omega)]
    rfl
  · have hfirst : (n / 4096 % 16 + 224) % 2 ^ 8 = n / 4096 + 224 := by omega
    have hvalue : (n / 4096 + 224) % 16 * 4096 + (n / 64 % 64 + 128) % 2 ^ 8 % 64 * 64 +
        (n % 64 + 128) % 2 ^ 8 % 64 = n := by omega
    simp only [group?, List.cons_append, List.nil_append, UInt8.toNat_ofNat', hcontinues, hfirst, hvalue]
    rw [if_neg (by omega), if_neg (by decide), if_neg (by simp), if_neg (by decide),
      if_pos (by simp; omega), if_neg (by simp; omega)]
    rfl
  · have hfirst : (n / 262144 % 8 + 240) % 2 ^ 8 = n / 262144 + 240 := by omega
    have hvalue : (n / 262144 + 240) % 8 * 262144 + (n / 4096 % 64 + 128) % 2 ^ 8 % 64 * 4096 +
        (n / 64 % 64 + 128) % 2 ^ 8 % 64 * 64 + (n % 64 + 128) % 2 ^ 8 % 64 = n := by omega
    simp only [group?, List.cons_append, List.nil_append, UInt8.toNat_ofNat', hcontinues, hfirst, hvalue]
    rw [if_neg (by omega), if_neg (by decide), if_neg (by simp), if_neg (by decide),
      if_neg (by simp), if_neg (by decide), if_pos (by simp; omega)]
    rfl

/-! ### Only groups are read as characters -/

theorem toNat_ofNat {n : Nat} (h : n.isValidChar) : (Char.ofNat n).val.toNat = n := by
  rw [Char.ofNat, dif_pos h]
  rfl

theorem continues {b : UInt8} (h : ¬ (!isContinuation b) = true) : b.toNat / 64 = 2 := by
  simpa [isContinuation] using h

section Groups
variable {a b c d : UInt8}

theorem encodeChar_one (ha : a.toNat < 0x80) : String.utf8EncodeChar (Char.ofNat a.toNat) = [a] := by
  simp only [String.utf8EncodeChar, toNat_ofNat (n := a.toNat) (.inl (by omega))]
  rw [if_pos (by omega), UInt8.ofNat_toNat]

theorem encodeChar_two (ha : 0xC2 ≤ a.toNat ∧ a.toNat < 0xE0) (hb : b.toNat / 64 = 2) :
    String.utf8EncodeChar (Char.ofNat (a.toNat % 32 * 64 + b.toNat % 64)) = [a, b] := by
  simp only [String.utf8EncodeChar, toNat_ofNat (n := a.toNat % 32 * 64 + b.toNat % 64) (.inl (by omega))]
  rw [if_neg (by omega), if_pos (by omega)]
  simp only [List.cons.injEq, ← UInt8.toNat_inj, UInt8.toNat_ofNat', and_true]
  omega

theorem encodeChar_three {n : Nat} (hn : n = a.toNat % 16 * 4096 + b.toNat % 64 * 64 + c.toNat % 64)
    (ha : 0xE0 ≤ a.toNat ∧ a.toNat < 0xF0) (hb : b.toNat / 64 = 2) (hc : c.toNat / 64 = 2) (hmin : 0x800 ≤ n)
    (hvalid : ¬ (0xD800 ≤ n ∧ n < 0xE000)) : String.utf8EncodeChar (Char.ofNat n) = [a, b, c] := by
  simp only [String.utf8EncodeChar, toNat_ofNat (n := n) (by unfold Nat.isValidChar; omega)]
  rw [if_neg (by omega), if_neg (by omega), if_pos (by omega)]
  simp only [List.cons.injEq, ← UInt8.toNat_inj, UInt8.toNat_ofNat', and_true]
  omega

theorem encodeChar_four {n : Nat}
    (hn : n = a.toNat % 8 * 262144 + b.toNat % 64 * 4096 + c.toNat % 64 * 64 + d.toNat % 64)
    (ha : 0xF0 ≤ a.toNat ∧ a.toNat < 0xF5) (hb : b.toNat / 64 = 2) (hc : c.toNat / 64 = 2) (hd : d.toNat / 64 = 2)
    (hmin : 0x10000 ≤ n) (hmax : n < 0x110000) : String.utf8EncodeChar (Char.ofNat n) = [a, b, c, d] := by
  simp only [String.utf8EncodeChar, toNat_ofNat (n := n) (by unfold Nat.isValidChar; omega)]
  rw [if_neg (by omega), if_neg (by omega), if_neg (by omega)]
  simp only [List.cons.injEq, ← UInt8.toNat_inj, UInt8.toNat_ofNat', and_true]
  omega

end Groups

/-- Nothing but the group of a character is read as it. -/
theorem eq_encodeChar_of_group? {bs : Bytes} {c : Char} {n : Nat} (h : group? bs = some (c, n)) :
    ∃ rest, bs = String.utf8EncodeChar c ++ rest := by
  have hgroup : group? bs = some (c, n) → ∃ group rest, String.utf8EncodeChar c = group ∧ bs = group ++ rest := by
    fun_cases group? bs with
    | case1 a rest x ha =>
      rintro ⟨⟩
      exact ⟨[a], rest, encodeChar_one ha, rfl⟩
    | case3 a x hx b rest hb ha =>
      rintro ⟨⟩
      simp only [Bool.and_eq_true, decide_eq_true_eq] at ha
      exact ⟨[a, b], rest, encodeChar_two ha (continues hb), rfl⟩
    | case6 a x hx b hb htwo c rest hc n ha hn =>
      rintro ⟨⟩
      simp only [Bool.and_eq_true, Bool.or_eq_true, decide_eq_true_eq] at ha hn
      exact ⟨[a, b, c], rest, encodeChar_three rfl ha (continues hb) (continues hc) (by omega) (by omega), rfl⟩
    | case8 a x hx b hb htwo c hc hthree d rest m hd hm =>
      rintro ⟨⟩
      simp only [Bool.and_eq_true, decide_eq_true_eq] at hm
      exact ⟨[a, b, c, d], rest, encodeChar_four rfl hm.1.1 (continues hb) (continues hc) (continues hd) hm.1.2 hm.2,
        rfl⟩
    | _ => exact nofun
  obtain ⟨group, rest, rfl, hbs⟩ := hgroup h
  exact ⟨rest, hbs⟩

/-! ### Texts -/

theorem mem_encode {b : UInt8} (hb : b.toNat < 128) (s : String) :
    b ∈ encode s ↔ ∃ c ∈ s.toList, c.toNat = b.toNat := by
  rw [encode, List.mem_flatMap]
  exact exists_congr fun c => and_congr_right fun _ => mem_encodeChar hb c

theorem encode_append (s t : String) : encode (s ++ t) = encode s ++ encode t := by
  rw [encode, String.toList_append, List.flatMap_append]
  rfl

/-- The bytes of a text are those that stand for it in memory. -/
theorem toList_toUTF8 (s : String) : s.toUTF8.data.toList = encode s := by
  rw [String.toUTF8_eq_toByteArray, ← String.utf8Encode_toList]
  exact List.toList_data_toByteArray

theorem decode?_encode (s : String) : decode? (encode s) = some s := by
  have hbytes : (⟨(encode s).toArray⟩ : ByteArray) = s.toByteArray := by
    rw [← toList_toUTF8, Array.toArray_toList]
    rfl
  rw [decode?, hbytes]
  exact dif_pos s.isValidUTF8

theorem encode_injective : Function.Injective encode := by
  intro s t h
  have hst : some s = some t := by rw [← decode?_encode s, ← decode?_encode t, h]
  exact Option.some.inj hst

/-- The rest of a group is passed over. -/
theorem decodeFrom_append (group rest : Bytes) : decodeFrom group.length (group ++ rest) = decodeFrom 0 rest := by
  induction group with
  | nil => rfl
  | cons b group ih => exact ih

theorem decodeFrom_encodeChar (c : Char) (rest : Bytes) :
    decodeFrom 0 (String.utf8EncodeChar c ++ rest) = c :: decodeFrom 0 rest := by
  obtain ⟨b, group, hgroup⟩ := List.exists_cons_of_ne_nil (String.utf8EncodeChar_ne_nil (c := c))
  have hread := group?_encodeChar c rest
  rw [hgroup, List.cons_append] at hread ⊢
  rw [decodeFrom, hread]
  show c :: decodeFrom group.length _ = _
  rw [decodeFrom_append]

theorem decodeFrom_encodeChars (cs : List Char) : decodeFrom 0 (cs.flatMap String.utf8EncodeChar) = cs := by
  induction cs with
  | nil => rfl
  | cons c cs ih => rw [List.flatMap_cons, decodeFrom_encodeChar, ih]

theorem decodeLossy_encode (s : String) : decodeLossy (encode s) = s := by
  rw [decodeLossy, encode, decodeFrom_encodeChars, String.ofList_toList]

/-- What is read without replacements is read from its own bytes. -/
theorem encodeChars_decodeFrom {bs : Bytes} (h : Units.replacement ∉ decodeFrom 0 bs) :
    (decodeFrom 0 bs).flatMap String.utf8EncodeChar = bs := by
  induction hlength : bs.length using Nat.strongRecOn generalizing bs with
  | _ k ih =>
    cases bs with
    | nil => rfl
    | cons b rest =>
      cases hgroup : group? (b :: rest) with
      | none => simp [decodeFrom, hgroup] at h
      | some found =>
        obtain ⟨later, hbs⟩ := eq_encodeChar_of_group? hgroup
        have hlater : later.length < k := by
          have hpos := List.length_pos_iff.2 (String.utf8EncodeChar_ne_nil (c := found.1))
          rw [← hlength, hbs, List.length_append]
          omega
        rw [hbs, decodeFrom_encodeChar, List.mem_cons, not_or] at h
        rw [hbs, decodeFrom_encodeChar, List.flatMap_cons, ih _ hlater h.2 rfl]

theorem encode_decodeLossy {bs : Bytes} (h : Units.replacement ∉ (decodeLossy bs).toList) :
    encode (decodeLossy bs) = bs := by
  rw [decodeLossy, String.toList_ofList] at h
  rw [encode, decodeLossy, String.toList_ofList, encodeChars_decodeFrom h]

end ClassAtlas.Text.Utf8
