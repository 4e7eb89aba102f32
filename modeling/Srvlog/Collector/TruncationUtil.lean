import Srvlog.Library.Text

/-! Cutting texts to a number of bytes. -/
namespace Srvlog.Collector
open Library

def MAX_BYTES_PER_SYMBOL : Nat := 4

def utf8Length (t : Text) : Nat := (t.map Char.utf8Size).sum

/-- `String.length`, which counts the characters beyond U+FFFF twice. -/
def utf16Length (t : Text) : Nat := (t.map fun ch => if ch.toNat < 0x10000 then 1 else 2).sum

/-- What a decoder that ignores a cut character reads from so many bytes of a text. -/
def decodeBytes : (bytes : Nat) → Text → Text
  | _, [] => []
  | bytes, ch :: t => if ch.utf8Size ≤ bytes then ch :: decodeBytes (bytes - ch.utf8Size) t else []

def truncateString (maxBytes : Nat) : Option Text → Option Text
  | none => none
  | some input =>
    if input = [] then none
    else if utf16Length input ≤ maxBytes / MAX_BYTES_PER_SYMBOL then some input
    else if utf8Length input ≤ maxBytes then some input
    else some (decodeBytes maxBytes input)

/-- The beginning that is kept fits. -/
theorem utf8Length_decodeBytes_le (bytes : Nat) (t : Text) : utf8Length (decodeBytes bytes t) ≤ bytes := by
  induction t generalizing bytes with
  | nil => exact Nat.zero_le _
  | cons ch t ih =>
    rw [decodeBytes]
    split
    · next hle =>
      have hrest := ih (bytes - ch.utf8Size)
      rw [utf8Length, List.map_cons, List.sum_cons]
      unfold utf8Length at hrest
      omega
    · exact Nat.zero_le _

theorem utf8Length_le_utf16Length (t : Text) : utf8Length t ≤ MAX_BYTES_PER_SYMBOL * utf16Length t := by
  induction t with
  | nil => exact Nat.le_refl _
  | cons ch t ih =>
    have hbytes : ch.utf8Size ≤ 4 := Char.utf8Size_le_four ch
    unfold utf8Length utf16Length MAX_BYTES_PER_SYMBOL at ih ⊢
    rw [List.map_cons, List.sum_cons, List.map_cons, List.sum_cons]
    split <;> omega

theorem utf8Length_le_of_suffix {t whole : Text} (h : t <:+ whole) : utf8Length t ≤ utf8Length whole := by
  obtain ⟨front, rfl⟩ := h
  unfold utf8Length
  rw [List.map_append, List.sum_append]
  exact Nat.le_add_left _ _

/-- A text that fits stays as it is. -/
theorem truncateString_of_fits {maxBytes : Nat} {input : Text} (hne : input ≠ []) (hfits : utf8Length input ≤ maxBytes) :
    truncateString maxBytes (some input) = some input := by
  rw [truncateString, if_neg hne, if_pos hfits, ite_self]

end Srvlog.Collector
