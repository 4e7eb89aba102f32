import Srvlog.Library.Chunks
import Srvlog.Library.Utf16
import Srvlog.Syslog.SnortRoundTrip

/-! The lines of the hex viewer, and that they show the captured bytes. -/
namespace Srvlog.Web.HexViewerPanel
open Library Syslog

section panel

def LINE_WIDTH : Nat := 32

def HEX_CODES : Text := "0123456789ABCDEF".toList

structure HexViewerLine where
  lineOffset : Text
  lineInHex : Text
  lineInAscii : Text
  deriving DecidableEq

/-- `format("0x%07X", lineOffset)`; a longer number is not cut. -/
def formatLineOffset (lineOffset : Nat) : Text :=
  let digits := (Nat.toDigits 16 lineOffset).map Char.toUpper
  "0x".toList ++ (List.replicate (7 - digits.length) '0' ++ digits)

/-- The loop of `formatLineInHex` from the i-th character on. -/
def hexFrom (length : Nat) : Nat → Text → Text
  | _, [] => []
  | i, ch :: chars =>
    (if 0 < i ∧ i < length ∧ i % 8 = 0 then "  ".toList else []) ++
      HEX_CODES.getD (ch.toNat >>> 4 &&& 0xF) '0' :: HEX_CODES.getD (ch.toNat &&& 0xF) '0' :: ' ' ::
        hexFrom length (i + 1) chars

def formatLineInHex (line : Text) : Text := (hexFrom line.length 0 line).map Char.toUpper

/-- `replaceAll("[\000-\040\177-\377]", ".")`. -/
def formatLineInAscii (line : Text) : Text :=
  line.map fun ch => if ch.toNat ≤ 32 ∨ 127 ≤ ch.toNat ∧ ch.toNat ≤ 255 then '.' else ch

/-- The loop of `getLines`. Its bounds stay below 2^31, as a payload has half as many
characters as its text of hex digits. -/
def getLinesFrom (data : Text) (lineStart lineEnd : Nat) : List HexViewerLine :=
  if lineStart < data.length then
    let line := (data.drop lineStart).take (min lineEnd data.length - lineStart)
    ⟨formatLineOffset lineStart, formatLineInHex line, formatLineInAscii line⟩ ::
      getLinesFrom data (lineStart + LINE_WIDTH) (lineEnd + LINE_WIDTH)
  else []
termination_by data.length - lineStart
decreasing_by
  rw [LINE_WIDTH]
  omega

def getLines (data : Text) : List HexViewerLine := getLinesFrom data 0 LINE_WIDTH

end panel

section columns

def withoutBlanks (t : Text) : Text := t.filter fun ch => ch ≠ ' '

/-- The two digits that the viewer shows for a character. -/
def hexPair (ch : Char) : Text := [hexDigit (ch.toNat / 16 % 16), hexDigit (ch.toNat % 16)]

theorem upper_hexDigit (n : Fin 16) : (hexDigit n).toUpper = hexDigit n ∧ hexDigit n ≠ ' ' := by
  revert n
  decide

theorem withoutBlanks_cons {ch : Char} (h : ch ≠ ' ') (t : Text) : withoutBlanks (ch :: t) = ch :: withoutBlanks t := by
  rw [withoutBlanks, List.filter_cons_of_pos]
  · rfl
  · exact decide_eq_true h

theorem withoutBlanks_hexPair (ch : Char) (t : Text) :
    withoutBlanks ((hexDigit (ch.toNat / 16 % 16) :: hexDigit (ch.toNat % 16) :: ' ' :: t).map Char.toUpper) =
      hexPair ch ++ withoutBlanks (t.map Char.toUpper) := by
  obtain ⟨hhigh, hhigh'⟩ := upper_hexDigit ⟨ch.toNat / 16 % 16, Nat.mod_lt _ (by decide)⟩
  obtain ⟨hlow, hlow'⟩ := upper_hexDigit ⟨ch.toNat % 16, Nat.mod_lt _ (by decide)⟩
  rw [List.map_cons, hhigh, List.map_cons, hlow, List.map_cons, withoutBlanks_cons hhigh', withoutBlanks_cons hlow']
  rfl

theorem withoutBlanks_hexFrom (length i : Nat) (chars : Text) :
    withoutBlanks ((hexFrom length i chars).map Char.toUpper) = chars.flatMap hexPair := by
  induction chars generalizing i with
  | nil => rfl
  | cons ch chars ih =>
    have hhigh : HEX_CODES.getD (ch.toNat >>> 4 &&& 0xF) '0' = hexDigit (ch.toNat / 16 % 16) := by
      rw [Nat.shiftRight_eq_div_pow, Nat.and_two_pow_sub_one_eq_mod _ 4]
      rfl
    have hlow : HEX_CODES.getD (ch.toNat &&& 0xF) '0' = hexDigit (ch.toNat % 16) := by
      rw [Nat.and_two_pow_sub_one_eq_mod _ 4]
      rfl
    have hgap (t : Text) : withoutBlanks (((if 0 < i ∧ i < length ∧ i % 8 = 0 then "  ".toList else []) ++ t).map
        Char.toUpper) = withoutBlanks (t.map Char.toUpper) := by
      split
      · rfl
      · rfl
    rw [hexFrom, hgap, hhigh, hlow, withoutBlanks_hexPair, ih, List.flatMap_cons]

theorem withoutBlanks_formatLineInHex (line : Text) :
    withoutBlanks (formatLineInHex line) = line.flatMap hexPair :=
  withoutBlanks_hexFrom _ _ _

theorem length_flatMap_hexPair (line : Text) : (line.flatMap hexPair).length = 2 * line.length := by
  induction line with
  | nil => rfl
  | cons ch line ih =>
    rw [List.flatMap_cons, List.length_append, ih, List.length_cons, hexPair, List.length_cons, List.length_singleton]
    omega

end columns

section offsets

/-- The number that is written with these digits, each worth its place in the alphabet. -/
def hexValue (digits : Text) : Nat := digits.foldl (fun value digit => 16 * value + HEX_CODES.idxOf digit) 0

/-- The text is `0x` and at least seven hex digits that read back as the offset. -/
def WritesOffset (t : Text) (offset : Nat) : Prop := ∃ digits : Text, t = "0x".toList ++ digits ∧
  7 ≤ digits.length ∧ (∀ digit ∈ digits, digit ∈ HEX_CODES) ∧ hexValue digits = offset

theorem upper_digitChar {n : Nat} (h : n < 16) :
    n.digitChar.toUpper ∈ HEX_CODES ∧ HEX_CODES.idxOf n.digitChar.toUpper = n := by
  have hall : ∀ n : Fin 16, n.val.digitChar.toUpper ∈ HEX_CODES ∧ HEX_CODES.idxOf n.val.digitChar.toUpper = n.val := by
    decide
  exact hall ⟨n, h⟩

theorem hexValue_append_singleton (digits : Text) (digit : Char) :
    hexValue (digits ++ [digit]) = 16 * hexValue digits + HEX_CODES.idxOf digit := by
  rw [hexValue, List.foldl_append]
  rfl

theorem hexValue_zeros (zeros : Nat) (digits : Text) : hexValue (List.replicate zeros '0' ++ digits) = hexValue digits := by
  induction zeros with
  | zero => rfl
  | succ zeros ih =>
    rw [← ih]
    rfl

/-- The induction is on the number: all its digits but the last are those of a sixteenth of it. -/
theorem upper_toDigits (n : Nat) : (∀ digit ∈ (Nat.toDigits 16 n).map Char.toUpper, digit ∈ HEX_CODES) ∧
    hexValue ((Nat.toDigits 16 n).map Char.toUpper) = n := by
  induction n using Nat.strong_induction_on with
  | h n ih =>
    obtain ⟨hdigit, hvalue⟩ := upper_digitChar (Nat.mod_lt n (show 0 < 16 by decide))
    rw [Nat.toDigits_eq_if (by decide)]
    split
    case isTrue h =>
      rw [Nat.mod_eq_of_lt h] at hdigit hvalue
      refine ⟨List.forall_mem_singleton.mpr hdigit, ?_⟩
      rw [List.map_singleton, ← List.nil_append [n.digitChar.toUpper], hexValue_append_singleton, hvalue]
      exact Nat.zero_add n
    case isFalse h =>
      obtain ⟨hdigits, hsixteenth⟩ := ih (n / 16) (Nat.div_lt_self (by omega) (by decide))
      rw [List.map_append, List.map_singleton]
      refine ⟨List.forall_mem_append.mpr ⟨hdigits, List.forall_mem_singleton.mpr hdigit⟩, ?_⟩
      rw [hexValue_append_singleton, hsixteenth, hvalue, Nat.div_add_mod]

theorem writes_formatLineOffset (lineOffset : Nat) : WritesOffset (formatLineOffset lineOffset) lineOffset := by
  obtain ⟨hdigits, hvalue⟩ := upper_toDigits lineOffset
  refine ⟨_, rfl, ?_, ?_, ?_⟩
  · rw [List.length_append, List.length_replicate]
    omega
  · refine List.forall_mem_append.mpr ⟨fun digit hdigit => ?_, hdigits⟩
    rw [(List.mem_replicate.mp hdigit).2]
    exact List.mem_cons_self
  · rw [hexValue_zeros, hvalue]

end offsets

section lines

theorem offsets_getLinesFrom (data : Text) (lineStart lineEnd : Nat) :
    (getLinesFrom data lineStart lineEnd).map (·.lineOffset) =
      (List.range (getLinesFrom data lineStart lineEnd).length).map fun i => formatLineOffset (lineStart + 32 * i) := by
  induction lineStart, lineEnd using getLinesFrom.induct data with
  | case1 lineStart lineEnd h ih =>
    rw [getLinesFrom, if_pos h, List.map_cons, ih, List.length_cons, List.range_succ_eq_map, List.map_cons,
      List.map_map]
    refine congrArg₂ _ rfl (List.map_congr_left fun i _ => congrArg formatLineOffset ?_)
    rw [LINE_WIDTH]
    omega
  | case2 lineStart lineEnd h =>
    rw [getLinesFrom, if_neg h]
    rfl

theorem offset_of_getLines {data : Text} {i : Nat} {line : HexViewerLine} (h : line ∈ (getLines data)[i]?) :
    line.lineOffset = formatLineOffset (32 * i) := by
  rw [getLines, Option.mem_def] at h
  have hoffset := congrArg (fun offsets : List Text => offsets[i]?) (offsets_getLinesFrom data 0 LINE_WIDTH)
  obtain ⟨hi, -⟩ := List.getElem?_eq_some_iff.mp h
  rw [List.getElem?_map, List.getElem?_map, List.getElem?_range hi, h] at hoffset
  rw [← Nat.zero_add (32 * i)]
  exact Option.some.inj hoffset

/-- The loop cuts the data into chunks: its two bounds are always one line apart. -/
theorem columns_getLinesFrom (data : Text) (lineStart lineEnd : Nat) (hwidth : lineEnd = lineStart + 32) :
    (getLinesFrom data lineStart lineEnd).map (fun line => (line.lineInHex, line.lineInAscii)) =
      (chunks 32 (data.drop lineStart)).map fun line => (formatLineInHex line, formatLineInAscii line) := by
  induction lineStart, lineEnd using getLinesFrom.induct data with
  | case1 lineStart lineEnd h ih =>
    subst hwidth
    have hlong : 0 < (data.drop lineStart).length := by
      rw [List.length_drop]
      omega
    have hline : (data.drop lineStart).take (min (lineStart + 32) data.length - lineStart) =
        (data.drop lineStart).take 32 := by
      rw [List.take_eq_take_iff, List.length_drop]
      omega
    rw [getLinesFrom, if_pos h, List.map_cons, ih rfl, hline, chunks_of_pos (by decide) hlong, List.map_cons,
      List.drop_drop]
    rfl
  | case2 lineStart lineEnd h =>
    rw [getLinesFrom, if_neg h, List.drop_of_length_le (Nat.le_of_not_lt h), chunks_nil]
    rfl

theorem columns_getLines (data : Text) : (getLines data).map (fun line => (line.lineInHex, line.lineInAscii)) =
    (chunks 32 data).map fun line => (formatLineInHex line, formatLineInAscii line) :=
  columns_getLinesFrom data 0 LINE_WIDTH rfl

/-- The line has two digits and one character for each of its bytes. -/
def HexViewerLine.Covers (line : HexViewerLine) (bytes : Nat) : Prop :=
  (withoutBlanks line.lineInHex).length = 2 * bytes ∧ line.lineInAscii.length = bytes

theorem covers_of_mem {line : HexViewerLine} {pieces : List Text}
    (h : (line.lineInHex, line.lineInAscii) ∈ pieces.map fun line => (formatLineInHex line, formatLineInAscii line)) :
    ∃ piece ∈ pieces, line.Covers piece.length := by
  obtain ⟨piece, hpiece, h⟩ := List.mem_map.mp h
  obtain ⟨hhex, hascii⟩ := Prod.mk.inj h
  refine ⟨piece, hpiece, ?_, ?_⟩
  · rw [← hhex, withoutBlanks_formatLineInHex, length_flatMap_hexPair]
  · rw [← hascii, formatLineInAscii, List.length_map]

end lines

section bytes

theorem exists_hexDigit {ch : Char} (h : ch ∈ HEX_CODES) : ∃ n : Fin 16, ch = hexDigit n := by
  obtain ⟨n, hn, rfl⟩ := List.mem_iff_getElem.mp h
  exact ⟨⟨n, hn⟩, List.getElem_eq_getD '0'⟩

/-- A text of an even number of hex digits is the text of a payload. -/
theorem exists_hexText {h : Text} (heven : h.length % 2 = 0) (hupper : ∀ ch ∈ h, ch ∈ HEX_CODES) :
    ∃ payload, h = hexText payload := by
  obtain ⟨n, hn⟩ := Nat.dvd_of_mod_eq_zero heven
  clear heven
  induction n generalizing h with
  | zero => exact ⟨[], List.eq_nil_of_length_eq_zero hn⟩
  | succ n ih =>
    obtain ⟨high, t, rfl⟩ := List.exists_cons_of_length_pos (show 0 < h.length by omega)
    rw [List.length_cons] at hn
    obtain ⟨low, t, rfl⟩ := List.exists_cons_of_length_pos (show 0 < t.length by omega)
    rw [List.length_cons] at hn
    obtain ⟨hhigh, htail⟩ := List.forall_mem_cons.mp hupper
    obtain ⟨hlow, hrest⟩ := List.forall_mem_cons.mp htail
    obtain ⟨a, rfl⟩ := exists_hexDigit hhigh
    obtain ⟨b, rfl⟩ := exists_hexDigit hlow
    obtain ⟨payload, rfl⟩ := ih hrest (by omega)
    have hdiv : (16 * a.val + b.val) / 16 = a.val := by omega
    have hmod : (16 * a.val + b.val) % 16 = b.val := by omega
    refine ⟨⟨16 * a.val + b.val, by omega⟩ :: payload, ?_⟩
    rw [hexText_cons, hdiv, hmod]

theorem toNat_byte (b : Fin 256) : (Char.ofNat b.val).toNat = b.val :=
  toNat_ofNat (.inl (b.isLt.trans (by decide)))

theorem flatMap_hexPair (payload : List (Fin 256)) :
    (payload.map fun b : Fin 256 => Char.ofNat b.val).flatMap hexPair = hexText payload := by
  rw [List.flatMap_map, hexText]
  refine congrArg List.flatten (List.map_congr_left fun b _ => ?_)
  have hdiv : b.val / 16 % 16 = b.val / 16 := Nat.mod_eq_of_lt (Nat.div_lt_of_lt_mul b.isLt)
  rw [hexPair, toNat_byte, hdiv]

/-- What the viewer has to show for a byte. -/
def asciiChar (ch : Char) : Char := if 33 ≤ ch.toNat ∧ ch.toNat ≤ 126 then ch else '.'

theorem formatLineInAscii_bytes (payload : List (Fin 256)) :
    formatLineInAscii (payload.map fun b : Fin 256 => Char.ofNat b.val) =
      (payload.map fun b : Fin 256 => Char.ofNat b.val).map asciiChar := by
  rw [formatLineInAscii, List.map_map, List.map_map]
  refine List.map_congr_left fun b _ => ?_
  rw [Function.comp_apply, Function.comp_apply, asciiChar, toNat_byte]
  split
  · rw [if_neg (by omega)]
  · rw [if_pos (by omega)]

end bytes

/-- The lines show the hex digits and the decoded data, the i-th at the offset 32 * i. -/
structure Shows (lines : List HexViewerLine) (h p : Text) : Prop where
  offsets : ∀ i, ∀ line ∈ lines[i]?, WritesOffset line.lineOffset (32 * i)
  full : ∀ line ∈ lines.dropLast, line.Covers 32
  last : ∀ line ∈ lines.getLast?, ∃ bytes, 1 ≤ bytes ∧ bytes ≤ 32 ∧ line.Covers bytes
  hex : lines.flatMap (fun line => withoutBlanks line.lineInHex) = h
  ascii : lines.flatMap (·.lineInAscii) = p.map asciiChar
  empty : h = [] → lines = []

/-- The viewer shows exactly the captured bytes. -/
theorem shows_captured_bytes (h : Text) (heven : h.length % 2 = 0) (hupper : ∀ ch ∈ h, ch ∈ HEX_CODES) :
    ∃ p, decodePayload (some h) = .ok p ∧ Shows (getLines p) h p := by
  obtain ⟨payload, rfl⟩ := exists_hexText heven hupper
  refine ⟨_, decodePayload_hexText payload, ?_⟩
  generalize hp : (payload.map fun b : Fin 256 => Char.ofNat b.val) = p
  have hcolumns := columns_getLines p
  refine ⟨?_, ?_, ?_, ?_, ?_, ?_⟩
  · intro i line hline
    rw [offset_of_getLines hline]
    exact writes_formatLineOffset (32 * i)
  · intro line hline
    have hmem := List.mem_map_of_mem (f := fun line : HexViewerLine => (line.lineInHex, line.lineInAscii)) hline
    rw [List.map_dropLast, hcolumns, ← List.map_dropLast] at hmem
    obtain ⟨piece, hpiece, hcovers⟩ := covers_of_mem hmem
    rwa [length_of_mem_dropLast_chunks (by decide) hpiece] at hcovers
  · intro line hline
    have hmem := List.mem_map_of_mem (f := fun line : HexViewerLine => (line.lineInHex, line.lineInAscii))
      (List.mem_of_mem_getLast? hline)
    rw [hcolumns] at hmem
    obtain ⟨piece, hpiece, hcovers⟩ := covers_of_mem hmem
    obtain ⟨hone, hmost⟩ := length_of_mem_chunks (by decide) hpiece
    exact ⟨piece.length, hone, hmost, hcovers⟩
  · calc (getLines p).flatMap (fun line => withoutBlanks line.lineInHex)
        = ((getLines p).map fun line => (line.lineInHex, line.lineInAscii)).flatMap
            fun columns => withoutBlanks columns.1 := by rw [List.flatMap_map]
      _ = (chunks 32 p).flatMap fun line => line.flatMap hexPair := by
        rw [hcolumns, List.flatMap_map]
        simp only [withoutBlanks_formatLineInHex]
      _ = hexText payload := by rw [flatMap_chunks, ← hp, flatMap_hexPair]
  · calc (getLines p).flatMap (·.lineInAscii)
        = ((getLines p).map fun line => (line.lineInHex, line.lineInAscii)).flatMap (·.2) := by rw [List.flatMap_map]
      _ = (chunks 32 p).flatMap formatLineInAscii := by rw [hcolumns, List.flatMap_map]
      _ = formatLineInAscii p := flatMap_map_chunks _ _ _
      _ = p.map asciiChar := by rw [← hp, formatLineInAscii_bytes]
  · intro hempty
    have hnil : p = [] := by
      rw [← hp, List.map_eq_nil_iff, ← List.length_eq_zero_iff]
      have hlength := length_hexText payload
      rw [hempty, List.length_nil] at hlength
      omega
    rw [hnil, chunks_nil] at hcolumns
    rw [hnil]
    exact List.map_eq_nil_iff.mp hcolumns

theorem three_bytes_shown : ∃ p, decodePayload (some "4A00FF".toList) = .ok p ∧ Shows (getLines p) "4A00FF".toList p :=
  shows_captured_bytes _ (by decide) (by decide)

example : formatLineOffset 64 = "0x0000040".toList := by decide

end Srvlog.Web.HexViewerPanel
