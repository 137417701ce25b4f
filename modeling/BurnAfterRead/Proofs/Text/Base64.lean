import BurnAfterRead.Text.Base64

/-!
# Base64 round trip

The text that is written for some bytes reads back as those bytes. The proof follows the groups of
the writer; the reader's groups without padding are told apart from padded ones because no digit is
the padding sign. The other way round, a text that reads as some bytes is the one that is written
for them: a group that was read is the number its digits spell, and the bits that its bytes do not
hold were checked to be zero. So reading and writing are inverse, and no text but the written one
is read.
-/

namespace BurnAfterRead.Text.Base64

/-- The padding sign is no digit. -/
theorem value?_pad : value? '=' = none := by decide

theorem digit_ne_pad {n : Nat} (h : n < 64) : digit n ≠ '=' := by
  intro heq
  have := value?_digit h
  rw [heq, value?_pad] at this
  exact absurd this (by simp)

theorem decode?_encode (bytes : List UInt8) : decode? (encode bytes) = some bytes := by
  fun_induction encode bytes with
  | case1 => rfl
  | case2 a n =>
    have ha : a.toNat < 256 := a.toNat_lt
    have e : (n / 64 * 64 + n % 64) / 16 = a.toNat := by omega
    have m : (n / 64 * 64 + n % 64) % 16 = 0 := by omega
    simp only [decode?, value?_digit (show n / 64 < 64 by omega),
      value?_digit (show n % 64 < 64 by omega), Option.bind_eq_bind, Option.bind_some, m, e,
      if_true, UInt8.ofNat_toNat]
  | case3 a b n =>
    have ha : a.toNat < 256 := a.toNat_lt
    have hb : b.toNat < 256 := b.toNat_lt
    have hpad : digit (n % 64) ≠ '=' := digit_ne_pad (by omega)
    have whole : (n / 4096 * 64 + n / 64 % 64) * 64 + n % 64 = n := by omega
    have e₁ : n / 1024 = a.toNat := by omega
    have e₂ : n / 4 % 256 = b.toNat := by omega
    have m : n % 4 = 0 := by omega
    rw [decode?]
    · simp only [value?_digit (show n / 4096 < 64 by omega),
        value?_digit (show n / 64 % 64 < 64 by omega), value?_digit (show n % 64 < 64 by omega),
        Option.bind_eq_bind, Option.bind_some, whole, m, e₁, e₂, if_true, UInt8.ofNat_toNat]
    · exact hpad
  | case4 a b c rest n ih =>
    have ha : a.toNat < 256 := a.toNat_lt
    have hb : b.toNat < 256 := b.toNat_lt
    have hc : c.toNat < 256 := c.toNat_lt
    have hthird : digit (n / 64 % 64) ≠ '=' := digit_ne_pad (by omega)
    have hfourth : digit (n % 64) ≠ '=' := digit_ne_pad (by omega)
    have whole : ((n / 262144 * 64 + n / 4096 % 64) * 64 + n / 64 % 64) * 64 + n % 64 = n := by
      omega
    have e₁ : n / 65536 = a.toNat := by omega
    have e₂ : n / 256 % 256 = b.toNat := by omega
    have e₃ : n % 256 = c.toNat := by omega
    rw [decode?]
    · simp only [value?_digit (show n / 262144 < 64 by omega),
        value?_digit (show n / 4096 % 64 < 64 by omega),
        value?_digit (show n / 64 % 64 < 64 by omega), value?_digit (show n % 64 < 64 by omega),
        Option.bind_eq_bind, Option.bind_some, whole, e₁, e₂, e₃, ih, UInt8.ofNat_toNat]
    · intro h _; exact absurd h hthird
    · intro h; exact absurd h hfourth

theorem digit_of_value? {c : Char} {n : Nat} (h : value? c = some n) : digit n = c := by
  have hc := Char.ofNat_toNat c
  unfold value? at h
  dsimp only at h
  split at h
  · obtain rfl := Option.some.inj h
    rw [digit, if_pos (by omega), Nat.add_sub_cancel' (by omega), hc]
  split at h
  · obtain rfl := Option.some.inj h
    rw [digit, if_neg (by omega), if_pos (by omega), Nat.add_sub_cancel' (by omega), hc]
  split at h
  · obtain rfl := Option.some.inj h
    rw [digit, if_neg (by omega), if_neg (by omega), if_pos (by omega), Nat.add_sub_cancel, hc]
  split at h
  · obtain rfl := Option.some.inj h
    rw [‹c = '+'›]
    rfl
  split at h
  · obtain rfl := Option.some.inj h
    rw [‹c = '/'›]
    rfl
  · exact absurd h (by simp)

theorem eq_encode_of_decode? {text : List Char} {bytes : List UInt8}
    (h : decode? text = some bytes) : text = encode bytes := by
  fun_induction decode? text generalizing bytes with
  | case1 =>
    obtain rfl := Option.some.inj h
    rfl
  | case2 a b =>
    simp only [Option.bind_eq_bind, Option.bind_eq_some_iff] at h
    obtain ⟨x, hx, y, hy, h⟩ := h
    have hx64 := value?_lt hx
    have hy64 := value?_lt hy
    obtain ⟨hzero, hbytes⟩ := Option.ite_none_right_eq_some.1 h
    obtain rfl := Option.some.inj hbytes
    have e := UInt8.toNat_ofNat_of_lt' (show (x * 64 + y) / 16 < 256 by omega)
    have first : (x * 64 + y) / 16 * 16 / 64 = x := by omega
    have second : (x * 64 + y) / 16 * 16 % 64 = y := by omega
    simp only [encode, e, first, second, digit_of_value? hx, digit_of_value? hy]
  | case3 a b c =>
    simp only [Option.bind_eq_bind, Option.bind_eq_some_iff] at h
    obtain ⟨x, hx, y, hy, z, hz, h⟩ := h
    have hx64 := value?_lt hx
    have hy64 := value?_lt hy
    have hz64 := value?_lt hz
    obtain ⟨hzero, hbytes⟩ := Option.ite_none_right_eq_some.1 h
    obtain rfl := Option.some.inj hbytes
    generalize hn : (x * 64 + y) * 64 + z = n at hzero
    have e₁ := UInt8.toNat_ofNat_of_lt' (show n / 1024 < 256 by omega)
    have e₂ := UInt8.toNat_ofNat_of_lt' (show n / 4 % 256 < 256 by omega)
    have whole : (n / 1024 * 256 + n / 4 % 256) * 4 = n := by omega
    have first : n / 4096 = x := by omega
    have second : n / 64 % 64 = y := by omega
    have third : n % 64 = z := by omega
    simp only [encode, e₁, e₂, whole, first, second, third, digit_of_value? hx, digit_of_value? hy,
      digit_of_value? hz]
  | case4 a b c d rest _ _ ih =>
    simp only [Option.bind_eq_bind, Option.bind_eq_some_iff] at h
    obtain ⟨x, hx, y, hy, z, hz, w, hw, more, hmore, h⟩ := h
    have hx64 := value?_lt hx
    have hy64 := value?_lt hy
    have hz64 := value?_lt hz
    have hw64 := value?_lt hw
    obtain rfl := Option.some.inj h
    generalize hn : ((x * 64 + y) * 64 + z) * 64 + w = n
    have e₁ := UInt8.toNat_ofNat_of_lt' (show n / 65536 < 256 by omega)
    have e₂ := UInt8.toNat_ofNat_of_lt' (show n / 256 % 256 < 256 by omega)
    have e₃ := UInt8.toNat_ofNat_of_lt' (show n % 256 < 256 by omega)
    have whole : (n / 65536 * 256 + n / 256 % 256) * 256 + n % 256 = n := by omega
    have first : n / 262144 = x := by omega
    have second : n / 4096 % 64 = y := by omega
    have third : n / 64 % 64 = z := by omega
    have fourth : n % 64 = w := by omega
    simp only [encode, e₁, e₂, e₃, whole, first, second, third, fourth, digit_of_value? hx,
      digit_of_value? hy, digit_of_value? hz, digit_of_value? hw, ← ih hmore]
  | case5 => exact absurd h (by simp)

/-- Every list of bytes has exactly one text. -/
theorem decode?_eq_some_iff {text : List Char} {bytes : List UInt8} :
    decode? text = some bytes ↔ text = encode bytes := by
  constructor
  · exact eq_encode_of_decode?
  · rintro rfl
    exact decode?_encode bytes

end BurnAfterRead.Text.Base64
