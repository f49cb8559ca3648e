import GameBoy.Hex
import Mathlib.Data.List.Basic

/-!
# Reading a line of assembly text

A line of assembly text is taken apart again: the text up to a dollar sign, the digits that follow
it, and the text after them, which begins with a closing bracket if there is any. In the lines that
the disassembler writes no dollar sign comes before and no bracket in between, so the three parts
can be told from the text (`GameBoy.Line.Clear.eq_of_text`), and the number from its digits
(`GameBoy.byteHex_inj`, `GameBoy.wordHex_inj`).
-/

namespace GameBoy

/-! ### Digits -/

/-- Different digits are different letters. -/
theorem LetterCase.nodup_digits (c : LetterCase) : c.digits.Nodup := by cases c <;> decide

/-- **A digit stands for one value.** -/
theorem LetterCase.digit_inj (c : LetterCase) {n m : Nat} :
    c.digit n = c.digit m ↔ n % 16 = m % 16 := by
  have length : c.digits.length = 16 := by cases c <;> rfl
  have bound (k : Nat) : k % 16 < c.digits.length := by
    rw [length]
    exact Nat.mod_lt k (by decide)
  exact List.getD_inj (bound n) (bound m) c.nodup_digits

/-- The last digit tells the remainder, and the digits before it the quotient. -/
theorem hexDigits_succ_inj {c : LetterCase} {width n m : Nat} :
    hexDigits c (width + 1) n = hexDigits c (width + 1) m ↔
      hexDigits c width (n / 16) = hexDigits c width (m / 16) ∧ n % 16 = m % 16 := by
  rw [hexDigits, hexDigits, ← c.digit_inj]
  constructor
  · intro h
    obtain ⟨rest, last⟩ := List.append_inj' h rfl
    exact ⟨rest, List.head_eq_of_cons_eq last⟩
  · rintro ⟨rest, last⟩
    rw [rest, last]

/-- **Two digits tell a byte.** -/
theorem byteHex_inj {a b : UInt8} : byteHex a = byteHex b ↔ a = b := by
  refine ⟨fun h => ?_, congrArg byteHex⟩
  have digits := String.ofList_inj.mp h
  simp only [hexDigits_succ_inj] at digits
  have ha := a.toNat_lt
  have hb := b.toNat_lt
  rw [← UInt8.toNat_inj]
  omega

/-- **Four digits tell a word.** -/
theorem wordHex_inj {a b : UInt16} : wordHex a = wordHex b ↔ a = b := by
  refine ⟨fun h => ?_, congrArg wordHex⟩
  have digits := String.ofList_inj.mp h
  simp only [hexDigits_succ_inj] at digits
  have ha := a.toNat_lt
  have hb := b.toNat_lt
  rw [← UInt16.toNat_inj]
  omega

/-- There are only digits among the digits of a number. -/
theorem mem_digits_of_mem_hexDigits {c : LetterCase} {width n : Nat} {d : Char}
    (h : d ∈ hexDigits c width n) : d ∈ c.digits := by
  induction width generalizing n with
  | zero => exact absurd h List.not_mem_nil
  | succ width ih =>
    rcases List.mem_append.mp h with rest | last
    · exact ih rest
    · have bound : n % 16 < c.digits.length := by
        cases c <;> exact Nat.mod_lt n (by decide)
      have found : c.digit n = c.digits[n % 16] := by
        rw [LetterCase.digit, List.getD_eq_getElem?_getD, List.getElem?_eq_getElem bound]
        rfl
      rw [List.mem_singleton.mp last, found]
      exact List.getElem_mem bound

/-! ### Lines -/

/-- **A line of assembly text**, in three parts. Text without digits consists of the first part. -/
@[ext] structure Line where
  /-- The text up to the dollar sign. -/
  before : String
  /-- The digits after it. -/
  digits : Option String
  /-- The text after the digits. -/
  after : String
  deriving DecidableEq, Repr

namespace Line

/-- The line as it is written. -/
def text (l : Line) : String :=
  match l.digits with
  | none => l.before
  | some digits => l.before ++ ("$" ++ digits) ++ l.after

/-- **The parts of a line show in its text**, because of the letters that separate them. -/
structure Clear (l : Line) : Prop where
  before : '$' ∉ l.before.toList
  digits : ∀ d ∈ l.digits, ')' ∉ d.toList
  after : ∀ c ∈ l.after.toList.head?, c = ')'
  plain : l.digits = none → l.after = ""

/-- **A text is cut at the first place where a letter stands**: what comes before does not have the
letter, and what comes after begins with it, if anything does. -/
theorem append_inj_of_notMem {c : Char} {x x' y y' : List Char} (hx : c ∉ x) (hx' : c ∉ x')
    (hy : ∀ d ∈ y.head?, d = c) (hy' : ∀ d ∈ y'.head?, d = c) (h : x ++ y = x' ++ y') :
    x = x' ∧ y = y' := by
  have cut {x y : List Char} (hx : c ∉ x) (hy : ∀ d ∈ y.head?, d = c) :
      (x ++ y).takeWhile (· != c) = x := by
    rw [List.takeWhile_append_of_pos fun d hd => bne_iff_ne.mpr (ne_of_mem_of_not_mem hd hx)]
    cases y with
    | nil => simp
    | cons d y => simp [hy d rfl]
  have same : x = x' := by rw [← cut hx hy, h, cut hx' hy']
  subst same
  exact ⟨rfl, List.append_cancel_left h⟩

/-- The letters from the dollar sign on. -/
def rest (l : Line) : List Char :=
  match l.digits with
  | none => []
  | some digits => '$' :: (digits.toList ++ l.after.toList)

theorem toList_text (l : Line) : l.text.toList = l.before.toList ++ l.rest := by
  rw [text, rest]
  cases l.digits <;> simp

theorem head?_rest (l : Line) : ∀ d ∈ l.rest.head?, d = '$' := by
  rw [rest]
  cases l.digits <;> simp

/-- **A line can be read from its text.** -/
theorem Clear.eq_of_text {l l' : Line} (hl : l.Clear) (hl' : l'.Clear) (h : l.text = l'.text) :
    l = l' := by
  have letters := congrArg String.toList h
  rw [toList_text, toList_text] at letters
  obtain ⟨first, second⟩ :=
    append_inj_of_notMem hl.before hl'.before l.head?_rest l'.head?_rest letters
  have before : l.before = l'.before := String.toList_inj.mp first
  rw [rest, rest] at second
  cases hd : l.digits with
  | none =>
    cases hd' : l'.digits with
    | none => exact Line.ext before (hd.trans hd'.symm) ((hl.plain hd).trans (hl'.plain hd').symm)
    | some => simp [hd, hd'] at second
  | some digits =>
    cases hd' : l'.digits with
    | none => simp [hd, hd'] at second
    | some digits' =>
      simp only [hd, hd', List.cons.injEq, true_and] at second
      obtain ⟨number, last⟩ := append_inj_of_notMem (hl.digits _ hd) (hl'.digits _ hd') hl.after
        hl'.after second
      have same : digits = digits' := String.toList_inj.mp number
      refine Line.ext before ?_ (String.toList_inj.mp last)
      rw [hd, hd', same]

end Line

end GameBoy
