import Srvlog.Library.Text

/-! Decimal numerals as texts: the value of a digit string and padding to a length. -/
namespace Srvlog.Library

def decimal (n : Nat) : Text := Nat.toDigits 10 n

def digitsValue (t : Text) : Nat := Nat.ofDigitChars 10 t 0

/-- Pad on the left to the given length; a longer text is cut to it. -/
def lpad (t : Text) (len : Nat) (pad : Char) : Text :=
  if len ≤ t.length then t.take len else List.replicate (len - t.length) pad ++ t

theorem digitsValue_decimal (n : Nat) : digitsValue (decimal n) = n := Nat.ofDigitChars_ten_toDigits

theorem isDigit_of_mem_decimal {n : Nat} {digit : Char} (h : digit ∈ decimal n) : digit.isDigit :=
  Nat.isDigit_of_mem_toDigits (by decide) (by decide) h

theorem decimal_ne_nil (n : Nat) : decimal n ≠ [] := Nat.toDigits_ne_nil

theorem digitsValue_append (s t : Text) :
    digitsValue (s ++ t) = 10 ^ t.length * digitsValue s + digitsValue t := by
  rw [digitsValue, Nat.ofDigitChars_append, Nat.ofDigitChars_eq_ofDigitChars_zero]
  rfl

theorem decimal_length_le_iff {n len : Nat} (h : 0 < len) : (decimal n).length ≤ len ↔ n < 10 ^ len :=
  Nat.length_toDigits_le_iff (by decide) h

theorem length_lpad (t : Text) (len : Nat) (pad : Char) : (lpad t len pad).length = len := by
  unfold lpad
  split
  · rw [List.length_take]
    omega
  · rw [List.length_append, List.length_replicate]
    omega

/-- A number that fits is not changed by leading zeros. -/
theorem digitsValue_lpad {n len : Nat} (hlen : 0 < len) (h : n < 10 ^ len) :
    digitsValue (lpad (decimal n) len '0') = n := by
  have hle := (decimal_length_le_iff hlen).mpr h
  unfold lpad
  split
  · rw [List.take_of_length_le hle, digitsValue_decimal]
  · rw [digitsValue_append, digitsValue_decimal, digitsValue, Nat.ofDigitChars_replicate_zero]
    omega

theorem isDigit_of_mem_lpad {n len : Nat} {digit : Char} (h : digit ∈ lpad (decimal n) len '0') : digit.isDigit := by
  unfold lpad at h
  split at h
  · exact isDigit_of_mem_decimal (List.mem_of_mem_take h)
  · rcases List.mem_append.mp h with h | h
    · rw [(List.mem_replicate.mp h).2]
      rfl
    · exact isDigit_of_mem_decimal h

theorem digitsValue_cons (digit : Char) (t : Text) :
    digitsValue (digit :: t) = 10 ^ t.length * (digit.toNat - 48) + digitsValue t := by
  rw [digitsValue, Nat.ofDigitChars_cons, Nat.ofDigitChars_eq_ofDigitChars_zero, Nat.mul_zero, Nat.zero_add]
  rfl

theorem toNat_of_isDigit {digit : Char} (h : digit.isDigit) : 48 ≤ digit.toNat ∧ digit.toNat ≤ 57 := by
  rw [Char.isDigit, Bool.and_eq_true, decide_eq_true_eq, decide_eq_true_eq] at h
  exact h

theorem digitsValue_lt {t : Text} (h : ∀ digit ∈ t, digit.isDigit) : digitsValue t < 10 ^ t.length := by
  induction t with
  | nil => exact Nat.one_pos
  | cons digit t ih =>
    have hdigit := toNat_of_isDigit (h digit List.mem_cons_self)
    have hrest := ih fun ch hch => h ch (List.mem_cons_of_mem _ hch)
    have hnine : 10 ^ t.length * (digit.toNat - 48) ≤ 10 ^ t.length * 9 := Nat.mul_le_mul_left _ (by omega)
    rw [digitsValue_cons, List.length_cons, Nat.pow_succ]
    omega

/-- Numerals of one length are ordered like their values. -/
theorem lt_iff_digitsValue_lt {s t : Text} (hlen : s.length = t.length) (hs : ∀ digit ∈ s, digit.isDigit)
    (ht : ∀ digit ∈ t, digit.isDigit) : s < t ↔ digitsValue s < digitsValue t := by
  induction s generalizing t with
  | nil =>
    obtain rfl := List.length_eq_zero_iff.mp hlen.symm
    simp
  | cons a s ih =>
    cases t with
    | nil => cases hlen
    | cons b t =>
      rw [List.length_cons, List.length_cons, Nat.succ_inj] at hlen
      have hs' : ∀ digit ∈ s, digit.isDigit := fun ch hch => hs ch (List.mem_cons_of_mem _ hch)
      have ht' : ∀ digit ∈ t, digit.isDigit := fun ch hch => ht ch (List.mem_cons_of_mem _ hch)
      have ha := toNat_of_isDigit (hs a List.mem_cons_self)
      have hb := toNat_of_isDigit (ht b List.mem_cons_self)
      have hlow := digitsValue_lt hs'
      have hlow' := digitsValue_lt ht'
      have hchar : a < b ↔ a.toNat < b.toNat := Iff.rfl
      rw [List.cons_lt_cons_iff, digitsValue_cons, digitsValue_cons, ih hlen hs' ht', hchar, hlen]
      rw [hlen] at hlow
      rcases Nat.lt_trichotomy a.toNat b.toNat with hlt | heq | hgt
      · have hstep : 10 ^ t.length * (a.toNat - 48 + 1) ≤ 10 ^ t.length * (b.toNat - 48) :=
          Nat.mul_le_mul_left _ (by omega)
        rw [Nat.mul_succ] at hstep
        exact iff_of_true (Or.inl hlt) (by omega)
      · obtain rfl : a = b := Char.toNat_inj.mp heq
        simp
      · have hstep : 10 ^ t.length * (b.toNat - 48 + 1) ≤ 10 ^ t.length * (a.toNat - 48) :=
          Nat.mul_le_mul_left _ (by omega)
        rw [Nat.mul_succ] at hstep
        have hne : a ≠ b := fun he => by rw [he] at hgt; omega
        exact iff_of_false (by simp only [not_or, not_and]; exact ⟨by omega, fun he => absurd he hne⟩) (by omega)

end Srvlog.Library
