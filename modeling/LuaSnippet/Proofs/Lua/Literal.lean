import Mathlib.Algebra.Group.Nat.Defs
import LuaSnippet.Proofs.Lua.Spelling

/-!
# What a string literal denotes

Lua reads a string literal byte by byte. A backslash and a letter stand for one byte, and so do a
backslash and up to three digits: an escape by digits goes on for as long as there are digits, so what it
denotes depends on what stands behind it. The character zero is written with one digit. If a digit
follows, Lua takes it for a part of the escape, and the literal denotes fewer bytes than the string has;
otherwise it denotes the bytes of the string (`readsBack_quote`).
-/

namespace LuaSnippet.Lua

/-! ### Reading a literal -/

/-- How far a string literal is read. -/
inductive Progress where
  | start
  | plain
  | escaped
  /-- Within an escape by digits: how many more digits it may have, and its value so far. -/
  | digits (left value : Nat)
  | closed
deriving DecidableEq, Repr

/-- The bytes that a letter, a quote or a backslash behind a backslash stand for. -/
def letterEscapes : List (Char × UInt8) :=
  [('a', 7), ('b', 8), ('t', 9), ('n', 10), ('v', 11), ('f', 12), ('r', 13), ('"', 34), ('\'', 39),
    ('\\', 92)]

def digitOf? (b : UInt8) : Option Nat :=
  if '0'.toUInt8 ≤ b ∧ b ≤ '9'.toUInt8 then some (b.toNat - '0'.toNat) else none

namespace Progress

/-- What a byte outside of escapes denotes, and how reading goes on behind it. -/
def stepPlain (b : UInt8) : Option (List UInt8 × Progress) :=
  if b = '"'.toUInt8 then some ([], closed)
  else if b = '\\'.toUInt8 then some ([], escaped)
  else if b = '\n'.toUInt8 ∨ b = '\r'.toUInt8 then none
  else some ([b], plain)

/-- What is denoted up to the next byte, and how reading goes on behind it. -/
def step (p : Progress) (b : UInt8) : Option (List UInt8 × Progress) :=
  match p with
  | start => if b = '"'.toUInt8 then some ([], plain) else none
  | plain => stepPlain b
  | escaped =>
    match digitOf? b with
    | some d => some ([], digits 2 d)
    | none => (letterEscapes.find? fun e => e.1.toUInt8 = b).map fun e => ([e.2], plain)
  | digits (left + 1) value =>
    match digitOf? b with
    | some d => some ([], digits left (10 * value + d))
    | none => if value < 256 then (stepPlain b).map fun r => (UInt8.ofNat value :: r.1, r.2) else none
  | digits 0 value =>
    if value < 256 then (stepPlain b).map fun r => (UInt8.ofNat value :: r.1, r.2) else none
  | closed => none

/-- What the rest of a literal denotes. -/
def run (p : Progress) : List UInt8 → Option (List UInt8)
  | [] => if p = closed then some [] else none
  | b :: bs => (p.step b).bind fun r => (r.2.run bs).map (r.1 ++ ·)

end Progress

/-- The bytes that a string literal denotes, if it is one. -/
def literalBytes? (literal : List UInt8) : Option (List UInt8) :=
  Progress.start.run literal

/-! ### Bytes of characters -/

def bytesOf (cs : List Char) : List UInt8 :=
  cs.flatMap String.utf8EncodeChar

theorem bytesOf_toList (s : String) : bytesOf s.toList = s.toUTF8.data.toList := by
  rw [String.toUTF8_eq_toByteArray, ← String.utf8Encode_toList, List.utf8Encode,
    List.toList_data_toByteArray]
  rfl

theorem bytesOf_cons (c : Char) (cs : List Char) :
    bytesOf (c :: cs) = String.utf8EncodeChar c ++ bytesOf cs := rfl

theorem bytesOf_append (cs ds : List Char) : bytesOf (cs ++ ds) = bytesOf cs ++ bytesOf ds :=
  List.flatMap_append

theorem utf8EncodeChar_of_le {c : Char} (hc : c.toNat ≤ 127) :
    String.utf8EncodeChar c = [c.toUInt8] := by
  have hval : c.val.toNat ≤ 127 := hc
  simp only [String.utf8EncodeChar, hval, if_true]
  rfl

theorem toNat_toUInt8 {c : Char} (hc : c.toNat ≤ 127) : c.toUInt8.toNat = c.toNat := by
  have hval : c.toUInt8.toNat = c.val.toNat % 256 := UInt32.toNat_toUInt8 c.val
  rw [hval]
  exact Nat.mod_eq_of_lt (Nat.lt_of_le_of_lt hc (by decide))

theorem le_toNat_of_mem_utf8EncodeChar {c : Char} (hc : 127 < c.toNat) :
    ∀ b ∈ String.utf8EncodeChar c, 128 ≤ b.toNat := by
  have hval : ¬ c.val.toNat ≤ 127 := by
    have heq : c.toNat = c.val.toNat := rfl
    omega
  intro b hb
  simp only [String.utf8EncodeChar, hval, if_false] at hb
  split at hb
  · simp only [List.mem_cons, List.not_mem_nil, or_false] at hb
    rcases hb with rfl | rfl <;> simp only [UInt8.toNat_ofNat'] <;> omega
  · split at hb
    · simp only [List.mem_cons, List.not_mem_nil, or_false] at hb
      rcases hb with rfl | rfl | rfl <;> simp only [UInt8.toNat_ofNat'] <;> omega
    · simp only [List.mem_cons, List.not_mem_nil, or_false] at hb
      rcases hb with rfl | rfl | rfl | rfl <;> simp only [UInt8.toNat_ofNat'] <;> omega

namespace Progress

variable {b : UInt8} {bs rest : List UInt8} {c : Char} {cs : List Char}

/-- Whether a byte stands for itself. -/
def IsOrdinary (b : UInt8) : Prop :=
  b ≠ '"'.toUInt8 ∧ b ≠ '\\'.toUInt8 ∧ b ≠ '\n'.toUInt8 ∧ b ≠ '\r'.toUInt8

theorem run_ordinary (hbs : ∀ b ∈ bs, IsOrdinary b) :
    plain.run (bs ++ rest) = (plain.run rest).map (bs ++ ·) := by
  induction bs with
  | nil => simp
  | cons b bs ih =>
    obtain ⟨⟨hquote, hback, hline, hreturn⟩, hothers⟩ := List.forall_mem_cons.mp hbs
    have hstep : plain.step b = some ([b], plain) := by
      simp [step, stepPlain, hquote, hback, hline, hreturn]
    rw [List.cons_append, run, hstep, Option.bind_some, ih hothers, Option.map_map]
    rfl

theorem run_letter {e : Char} {code : UInt8} (hdigit : digitOf? e.toUInt8 = none)
    (hcode : (letterEscapes.find? fun x => x.1.toUInt8 = e.toUInt8) = some (e, code)) :
    plain.run ('\\'.toUInt8 :: e.toUInt8 :: rest) = (plain.run rest).map (code :: ·) := by
  have hescape : plain.step '\\'.toUInt8 = some ([], escaped) := by decide
  have hletter : escaped.step e.toUInt8 = some ([code], plain) := by
    rw [step, hdigit]
    simp only [hcode, Option.map_some]
  rw [run, hescape, Option.bind_some, run, hletter, Option.bind_some, Option.map_map]
  rfl

/-- The characters that are written with a backslash. -/
def escapedChars : List Char := ['"', '\\', '\n', '\r', '\t', '\x00']

theorem quoteChar_of_notMem (hc : c ∉ escapedChars) : quoteChar c = [c] := by
  simp only [escapedChars, List.mem_cons, List.not_mem_nil, or_false, not_or] at hc
  simp only [quoteChar, hc, if_false]

theorem isOrdinary_of_notMem (hc : c ∉ escapedChars) :
    ∀ b ∈ String.utf8EncodeChar c, IsOrdinary b := by
  intro b hb
  have hne : ∀ d : Char, d.toNat ≤ 127 → c ≠ d → b ≠ d.toUInt8 := by
    rintro d hd hcd rfl
    by_cases hc : c.toNat ≤ 127
    · rw [utf8EncodeChar_of_le hc, List.mem_singleton] at hb
      have hnat : c.toNat = d.toNat := by rw [← toNat_toUInt8 hc, ← hb, toNat_toUInt8 hd]
      exact hcd (Char.toNat_inj.mp hnat)
    · have hhigh := le_toNat_of_mem_utf8EncodeChar (by omega) _ hb
      rw [toNat_toUInt8 hd] at hhigh
      omega
  simp only [escapedChars, List.mem_cons, List.not_mem_nil, or_false, not_or] at hc
  obtain ⟨hquote, hback, hline, hreturn, -⟩ := hc
  exact ⟨hne _ (by decide) hquote, hne _ (by decide) hback, hne _ (by decide) hline,
    hne _ (by decide) hreturn⟩

theorem run_quoteChar (hc : c ≠ '\x00') :
    plain.run (bytesOf (quoteChar c) ++ rest) =
      (plain.run rest).map (String.utf8EncodeChar c ++ ·) := by
  by_cases hescaped : c ∈ escapedChars
  · have hcases : c = '"' ∨ c = '\\' ∨ c = '\n' ∨ c = '\r' ∨ c = '\t' := by
      simpa [escapedChars, hc] using hescaped
    rcases hcases with rfl | rfl | rfl | rfl | rfl <;> exact run_letter (by decide) (by decide)
  · rw [quoteChar_of_notMem hescaped, bytesOf, List.flatMap_singleton]
    exact run_ordinary (isOrdinary_of_notMem hescaped)

/-- The character zero opens an escape to which two more digits may belong. -/
theorem run_quoteChar_zero :
    plain.run (bytesOf (quoteChar '\x00') ++ rest) = (digits 2 0).run rest := by
  have hescape : plain.step '\\'.toUInt8 = some ([], escaped) := by decide
  have hdigit : escaped.step '0'.toUInt8 = some ([], digits 2 0) := by decide
  have hbytes : bytesOf (quoteChar '\x00') = ['\\'.toUInt8, '0'.toUInt8] := by decide
  rw [hbytes, List.cons_append, run, hescape, Option.bind_some, List.cons_append, run, hdigit,
    Option.bind_some]
  simp

/-! ### Digits behind an escape -/

theorem digitOf?_eq_none {b : UInt8} (h : b.toNat < 48 ∨ 57 < b.toNat) : digitOf? b = none := by
  rw [digitOf?, if_neg]
  rintro ⟨hlow, hhigh⟩
  rw [UInt8.le_iff_toNat_le] at hlow hhigh
  have hzero : '0'.toUInt8.toNat = 48 := by decide
  have hnine : '9'.toUInt8.toNat = 57 := by decide
  omega

theorem bytesOf_digit (hc : c.isDigit = true) : bytesOf (quoteChar c) = [c.toUInt8] ∧
    digitOf? c.toUInt8 = some (c.toNat - 48) ∧ c.toNat - 48 < 10 := by
  have hrange : 48 ≤ c.toNat ∧ c.toNat ≤ 57 := isDigit_iff.mp hc
  have hescaped : c ∉ escapedChars := by
    have hall : (escapedChars.all fun d => !d.isDigit) = true := by decide
    intro hmem
    have hnot := List.all_eq_true.mp hall c hmem
    rw [hc] at hnot
    cases hnot
  have hnat : c.toUInt8.toNat = c.toNat := toNat_toUInt8 (by omega)
  refine ⟨?_, ?_, by omega⟩
  · rw [quoteChar_of_notMem hescaped, bytesOf, List.flatMap_singleton,
      utf8EncodeChar_of_le (by omega)]
  · have hlow : '0'.toUInt8 ≤ c.toUInt8 := by
      rw [UInt8.le_iff_toNat_le, hnat]
      exact hrange.1
    have hhigh : c.toUInt8 ≤ '9'.toUInt8 := by
      rw [UInt8.le_iff_toNat_le, hnat]
      exact hrange.2
    rw [digitOf?, if_pos ⟨hlow, hhigh⟩, hnat]
    rfl

theorem exists_cons_bytesOf (hc : c.isDigit = false) :
    ∃ b bs, bytesOf (quoteChar c) = b :: bs ∧ digitOf? b = none := by
  by_cases hescaped : c ∈ escapedChars
  · have hall : ∀ d ∈ escapedChars, ∃ e, quoteChar d = ['\\', e] := by
      simp [escapedChars, quoteChar]
    obtain ⟨e, he⟩ := hall c hescaped
    exact ⟨'\\'.toUInt8, bytesOf [e], by rw [he]; rfl, by decide⟩
  rw [quoteChar_of_notMem hescaped, bytesOf, List.flatMap_singleton]
  by_cases hascii : c.toNat ≤ 127
  · rw [utf8EncodeChar_of_le hascii]
    refine ⟨c.toUInt8, [], rfl, digitOf?_eq_none ?_⟩
    rw [toNat_toUInt8 hascii]
    by_contra hrange
    have hdigit : c.isDigit = true := isDigit_iff.mpr (by omega)
    rw [hc] at hdigit
    cases hdigit
  · have hhigh := le_toNat_of_mem_utf8EncodeChar (c := c) (by omega)
    have hlength : (String.utf8EncodeChar c).length = c.utf8Size := String.length_utf8EncodeChar c
    cases hbytes : String.utf8EncodeChar c with
    | nil =>
      rw [hbytes] at hlength
      exact absurd hlength.symm (Nat.ne_of_gt c.utf8Size_pos)
    | cons b bs =>
      rw [hbytes] at hhigh
      have hb : 128 ≤ b.toNat := hhigh b List.mem_cons_self
      exact ⟨b, bs, rfl, digitOf?_eq_none (.inr (by omega))⟩

theorem run_digits_digit (hc : c.isDigit = true) (left value : Nat) :
    (digits (left + 1) value).run (bytesOf (quoteChar c) ++ rest) =
      (digits left (10 * value + (c.toNat - 48))).run rest := by
  obtain ⟨hbytes, hdigit, -⟩ := bytesOf_digit hc
  have hstep : (digits (left + 1) value).step c.toUInt8 =
      some ([], digits left (10 * value + (c.toNat - 48))) := by
    rw [step, hdigit]
  rw [hbytes, List.cons_append, run, hstep, Option.bind_some]
  simp

theorem run_digits_end {left value : Nat} (hvalue : value < 256)
    (hb : left = 0 ∨ digitOf? b = none) :
    (digits left value).run (b :: bs) = (plain.run (b :: bs)).map (UInt8.ofNat value :: ·) := by
  have hstep : (digits left value).step b =
      (stepPlain b).map fun r => (UInt8.ofNat value :: r.1, r.2) := by
    cases left with
    | zero => rw [step, if_pos hvalue]
    | succ left =>
      have hnone : digitOf? b = none := hb.resolve_left (Nat.succ_ne_zero left)
      rw [step, hnone]
      simp only [hvalue, if_true]
  rw [run, hstep, run, step]
  cases stepPlain b with
  | none => rfl
  | some r => simp [Option.map_map, Function.comp_def]

/-! ### Whole literals -/

/-- The bytes of a literal behind its opening quote. -/
def quotedRest (cs : List Char) : List UInt8 :=
  bytesOf (cs.flatMap quoteChar ++ ['"'])

theorem quotedRest_cons (c : Char) (cs : List Char) :
    quotedRest (c :: cs) = bytesOf (quoteChar c) ++ quotedRest cs := by
  rw [quotedRest, List.flatMap_cons, List.append_assoc, bytesOf_append, quotedRest]

def startsWithDigit (cs : List Char) : Bool :=
  cs.head?.any Char.isDigit

theorem run_digits_plain {left value : Nat} (hvalue : value < 256)
    (h : left = 0 ∨ startsWithDigit cs = false) :
    (digits left value).run (quotedRest cs) =
      (plain.run (quotedRest cs)).map (UInt8.ofNat value :: ·) := by
  cases cs with
  | nil => exact run_digits_end hvalue (.inr (by decide))
  | cons c cs =>
    rw [quotedRest_cons]
    cases hc : c.isDigit with
    | false =>
      obtain ⟨b, bs, hbytes, hb⟩ := exists_cons_bytesOf hc
      rw [hbytes]
      exact run_digits_end hvalue (.inr hb)
    | true =>
      have hleft : left = 0 := h.resolve_right (by simp [startsWithDigit, hc])
      rw [(bytesOf_digit hc).1]
      exact run_digits_end hvalue (.inl hleft)

/-- Whether a value has at most as many digits as an escape has had so far behind its first one. -/
structure Fits (left value : Nat) : Prop where
  left_le : left ≤ 2
  value_lt : value < 10 ^ (2 - left)

theorem Fits.lt {left value : Nat} (h : Fits left value) : value < 256 := by
  have hpow : 10 ^ (2 - left) ≤ 10 ^ 2 := Nat.pow_le_pow_right (by decide) (by omega)
  have hvalue := h.value_lt
  omega

theorem Fits.next {left value d : Nat} (h : Fits (left + 1) value) (hd : d < 10) :
    Fits left (10 * value + d) := by
  obtain ⟨hleft, hvalue⟩ := h
  have hcases : left = 0 ∨ left = 1 := by omega
  refine ⟨by omega, ?_⟩
  rcases hcases with rfl | rfl <;> simp only [Nat.reduceAdd, Nat.reduceSub] at hvalue ⊢ <;> omega

/-- A literal is read to its end, and it denotes no more bytes than it was written for: with an escape by
digits before it one more byte at most, and none if it starts with a digit that the escape takes. -/
theorem run_quotedRest_le (cs : List Char) :
    (∃ bs, plain.run (quotedRest cs) = some bs ∧ bs.length ≤ (bytesOf cs).length) ∧
      ∀ left value, Fits left value → ∃ bs, (digits left value).run (quotedRest cs) = some bs ∧
        bs.length ≤ (bytesOf cs).length + 1 ∧
        (left ≠ 0 → startsWithDigit cs = true → bs.length ≤ (bytesOf cs).length) := by
  induction cs with
  | nil =>
    refine ⟨⟨[], by decide, Nat.le_refl 0⟩, fun left value hfits => ?_⟩
    refine ⟨[UInt8.ofNat value], ?_, Nat.le_refl 1, fun _ h => nomatch h⟩
    rw [run_digits_plain hfits.lt (.inr rfl)]
    rfl
  | cons c cs ih =>
    obtain ⟨⟨bs, hbs, hle⟩, hdigits⟩ := ih
    have hpos : 0 < (String.utf8EncodeChar c).length := by
      rw [String.length_utf8EncodeChar]
      exact c.utf8Size_pos
    have hlength : (bytesOf (c :: cs)).length =
        (String.utf8EncodeChar c).length + (bytesOf cs).length := by
      rw [bytesOf_cons, List.length_append]
    have hplain : ∃ bs, plain.run (quotedRest (c :: cs)) = some bs ∧
        bs.length ≤ (bytesOf (c :: cs)).length := by
      rw [quotedRest_cons]
      by_cases hc : c = '\x00'
      · obtain ⟨bs', hbs', hle', -⟩ := hdigits 2 0 ⟨Nat.le_refl 2, by decide⟩
        rw [hc, run_quoteChar_zero]
        exact ⟨bs', hbs', hc ▸ by omega⟩
      · rw [run_quoteChar hc, hbs]
        refine ⟨_, rfl, ?_⟩
        rw [List.length_append]
        omega
    refine ⟨hplain, fun left value hfits => ?_⟩
    by_cases htaken : left ≠ 0 ∧ c.isDigit = true
    · obtain ⟨hleft, hc⟩ := htaken
      obtain ⟨n, rfl⟩ := Nat.exists_eq_succ_of_ne_zero hleft
      obtain ⟨bs', hbs', hle', -⟩ := hdigits n _ (hfits.next (bytesOf_digit hc).2.2)
      rw [quotedRest_cons, run_digits_digit hc]
      exact ⟨bs', hbs', by omega, fun _ _ => by omega⟩
    · have hend : left = 0 ∨ startsWithDigit (c :: cs) = false := by
        by_cases hzero : left = 0
        · exact .inl hzero
        · exact .inr (by simpa [startsWithDigit, hzero] using htaken)
      obtain ⟨bs', hbs', hle'⟩ := hplain
      rw [run_digits_plain hfits.lt hend, hbs']
      refine ⟨_, rfl, Nat.succ_le_succ hle', fun hleft hstart => ?_⟩
      rw [hend.resolve_left hleft] at hstart
      cases hstart

end Progress

/-- Whether no zero stands directly before a digit. -/
def ZerosApart (cs : List Char) : Prop :=
  cs.IsChain fun c d => c = '\x00' → d.isDigit = false

theorem zerosApart_cons {c : Char} {cs : List Char} : ZerosApart (c :: cs) ↔
    (c = '\x00' → Progress.startsWithDigit cs = false) ∧ ZerosApart cs := by
  rw [ZerosApart, List.isChain_cons, Progress.startsWithDigit, ZerosApart]
  cases cs <;> simp

open Progress in
/-- What stands behind the opening quote of a literal denotes the bytes it was written for, unless a zero
stands before a digit; then it denotes fewer. -/
theorem run_quotedRest (cs : List Char) : ∃ bs, plain.run (quotedRest cs) = some bs ∧
    (bs = bytesOf cs ↔ ZerosApart cs) := by
  induction cs with
  | nil => exact ⟨[], by decide, iff_of_true rfl .nil⟩
  | cons c cs ih =>
    obtain ⟨bs, hbs, hiff⟩ := ih
    rw [quotedRest_cons, bytesOf_cons, zerosApart_cons]
    by_cases hc : c = '\x00'
    · have hzero : String.utf8EncodeChar '\x00' = [0] := by decide
      rw [hc, run_quoteChar_zero, hzero]
      cases hstart : startsWithDigit cs with
      | true =>
        -- The escape takes the digit, so that one byte is missing.
        obtain ⟨bs', hbs', -, hle⟩ := (run_quotedRest_le cs).2 2 0 ⟨Nat.le_refl 2, by decide⟩
        refine ⟨bs', hbs', iff_of_false ?_ (by simp)⟩
        rintro rfl
        have hshort := hle (by decide) hstart
        rw [List.length_append, List.length_singleton] at hshort
        omega
      | false =>
        rw [run_digits_plain (by decide) (.inr hstart), hbs]
        refine ⟨_, rfl, ?_⟩
        simp [hiff]
    · rw [run_quoteChar hc, hbs]
      refine ⟨_, rfl, ?_⟩
      simp [hiff, hc]

/-- Whether some characters are a literal that denotes the bytes of a string exactly if no zero stands
directly before a digit in the string. -/
def ReadsBack (s : String) (literal : List Char) : Prop :=
  ∃ bs, literalBytes? (bytesOf literal) = some bs ∧
    (bs = s.toUTF8.data.toList ↔ ZerosApart s.toList)

/-- **A literal denotes the bytes of its string unless a zero stands before a digit.** -/
theorem readsBack_quote (s : String) : ReadsBack s (quote s).toList := by
  obtain ⟨bs, hbs, hiff⟩ := run_quotedRest s.toList
  refine ⟨bs, ?_, by rw [← bytesOf_toList, hiff]⟩
  have hquote : bytesOf (quote s).toList = '"'.toUInt8 :: Progress.quotedRest s.toList := by
    rw [quote, String.toList_ofList, quoteChars, bytesOf_cons]
    rfl
  have hstart : Progress.start.step '"'.toUInt8 = some ([], .plain) := by decide
  rw [literalBytes?, hquote, Progress.run, hstart, Option.bind_some, hbs]
  rfl

end LuaSnippet.Lua
