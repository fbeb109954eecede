import Mathlib

/- parse_cpulist (src/numa.c) against the format of the kernel's CPU lists. A string is the
list of its characters; where the list ends the source reads the NUL. -/
namespace Loomworks.Numa

def isWhitespace (c : Char) : Bool := c == ' ' || c == '\t' || c == '\n' || c == '\r'

/-- isspace in the C locale. -/
def isSpace (c : Char) : Bool := isWhitespace c || c == '\x0b' || c == '\x0c'

/-- strtol in base 10: the value and the rest of the string, which is the whole string when
there is no number. long has 64 bits. -/
def strtol (p : List Char) : Int × List Char :=
  let signed := p.dropWhile isSpace
  let (negative, digits) := match signed with
    | '-' :: rest => (true, rest)
    | '+' :: rest => (false, rest)
    | rest => (false, rest)
  let number := digits.takeWhile Char.isDigit
  if number = [] then (0, p)
  else
    let value : Int := Nat.ofDigitChars 10 number 0
    (max (-2 ^ 63) (min (if negative then -value else value) (2 ^ 63 - 1)),
      digits.dropWhile Char.isDigit)

/-- arr with its count, and cap. -/
structure CpuArray where
  cpus : List Nat
  cap : Nat
  deriving DecidableEq, Repr

/-- The loop over c for one range, with left numbers to go; alloc is the outcome of the
allocation of an array of that capacity. -/
def pushRange (alloc : Nat → Bool) : (left : Nat) → (c : Int) → CpuArray → Option CpuArray
  | 0, _, arr => some arr
  | left + 1, c, arr =>
    let entry := (c % 2 ^ 32).toNat
    if arr.cpus.length ≥ arr.cap then
      if alloc (arr.cap * 2) then
        pushRange alloc left (c + 1) ⟨arr.cpus ++ [entry], arr.cap * 2⟩
      else none
    else pushRange alloc left (c + 1) ⟨arr.cpus ++ [entry], arr.cap⟩

/-- What follows a first number: the last one and the rest of the string. A dash with no
number at or above start behind it is skipped. -/
def rangeEnd (start : Int) (p : List Char) : Int × List Char :=
  match p with
  | '-' :: rest =>
    let read := strtol rest
    if read.2.length ≠ rest.length ∧ start ≤ read.1 then read else (start, rest)
  | _ => (start, p)

/-- The loop over the string. Every round consumes a character, so that as many rounds as
there are characters are enough. -/
def scanList (alloc : Nat → Bool) : (rounds : Nat) → List Char → CpuArray → Option CpuArray
  | 0, _, arr => some arr
  | rounds + 1, str, arr =>
    let p := str.dropWhile fun c => isWhitespace c || c == ','
    if p = [] then some arr
    else
      let read := strtol p
      if read.2.length = p.length ∨ read.1 < 0 then some arr
      else
        let last := rangeEnd read.1 read.2
        match pushRange alloc (last.1 - read.1 + 1).toNat read.1 arr with
        | none => none
        | some arr => scanList alloc rounds last.2 arr

/-- The array and out_count; none is -1. -/
def parseCpulist (alloc : Nat → Bool) (str : List Char) : Option (List Nat × Nat) :=
  if alloc 16 then
    match scanList alloc (str.length + 1) str ⟨[], 16⟩ with
    | none => none
    | some arr => if arr.cpus = [] then none else some (arr.cpus, arr.cpus.length % 2 ^ 32)
  else none

/-- A range as it is printed, with the white space around it. A single number stands alone
or as a range. -/
structure Item where
  first : Nat
  last : Nat
  alone : Bool
  before : List Char
  after : List Char
  ordered : first ≤ last
  small : last < 2 ^ 31
  single : alone = true → first = last
  white : ∀ c ∈ before ++ after, isWhitespace c = true

namespace Item

def print (i : Item) : List Char :=
  i.before ++ Nat.toDigits 10 i.first ++
    (if i.alone then [] else '-' :: Nat.toDigits 10 i.last) ++ i.after

def numbers (i : Item) : List Nat := List.range' i.first (i.last + 1 - i.first)

end Item

/-- The list as it is printed, items separated by commas. -/
def printCpulist (items : List Item) (newline : Bool) : List Char :=
  List.intercalate [','] (items.map Item.print) ++ if newline then ['\n'] else []

def numbers (items : List Item) : List Nat := items.flatMap Item.numbers

/-- The characters between two numbers. -/
def isSeparator (c : Char) : Bool := isWhitespace c || c == ','

variable {alloc : Nat → Bool} {c : Char} {rest : List Char}

theorem not_isDigit_of_isSeparator (separator : isSeparator c = true) : c.isDigit = false := by
  simp only [isSeparator, isWhitespace, Bool.or_eq_true, beq_iff_eq] at separator
  rcases separator with (((rfl | rfl) | rfl) | rfl) | rfl <;> decide

theorem ne_dash_of_isSeparator (separator : isSeparator c = true) : c ≠ '-' := by
  rintro rfl
  exact absurd separator (by decide)

/-- A digit is no white space, no sign and no comma. -/
theorem digit_cases (digit : c.isDigit = true) :
    isSpace c = false ∧ isSeparator c = false ∧ c ≠ '-' ∧ c ≠ '+' := by
  have code : ∀ d : Char, d.isDigit = false → c ≠ d := by
    rintro d other rfl
    rw [digit] at other
    cases other
  have space := code ' ' (by decide)
  have tab := code '\t' (by decide)
  have newline := code '\n' (by decide)
  have carriage := code '\r' (by decide)
  have vertical := code '\x0b' (by decide)
  have form := code '\x0c' (by decide)
  have comma := code ',' (by decide)
  refine ⟨?_, ?_, code '-' (by decide), code '+' (by decide)⟩
  · simp [isSpace, isWhitespace, space, tab, newline, carriage, vertical, form]
  · simp [isSeparator, isWhitespace, space, tab, newline, carriage, comma]

theorem isDigit_of_mem_toDigits {n : Nat} (member : c ∈ Nat.toDigits 10 n) : c.isDigit = true :=
  Nat.isDigit_of_mem_toDigits (by decide) (by decide) member

/-- A printed number ends where no digit follows. -/
def EndsNumber (rest : List Char) : Prop := ∀ c ∈ rest.head?, c.isDigit = false

theorem takeWhile_digits (n : Nat) (ends : EndsNumber rest) :
    (Nat.toDigits 10 n ++ rest).takeWhile Char.isDigit = Nat.toDigits 10 n ∧
      (Nat.toDigits 10 n ++ rest).dropWhile Char.isDigit = rest := by
  have digits : ∀ c ∈ Nat.toDigits 10 n, c.isDigit = true := fun c => isDigit_of_mem_toDigits
  rw [List.takeWhile_append_of_pos digits, List.dropWhile_append_of_pos digits]
  cases rest with
  | nil => simp
  | cons c rest => simp [ends c rfl]

/-- strtol reads a printed number back. -/
theorem strtol_toDigits {n : Nat} (small : n < 2 ^ 31) (ends : EndsNumber rest) :
    strtol (Nat.toDigits 10 n ++ rest) = ((n : Int), rest) := by
  obtain ⟨number, tail⟩ := takeWhile_digits n ends
  cases digits : Nat.toDigits 10 n with
  | nil => exact absurd digits Nat.toDigits_ne_nil
  | cons d ds =>
    have digit : d.isDigit = true := isDigit_of_mem_toDigits (digits ▸ List.mem_cons_self)
    obtain ⟨noSpace, -, noMinus, noPlus⟩ := digit_cases digit
    rw [digits] at number tail
    have value : Nat.ofDigitChars 10 (d :: ds) 0 = n := by
      rw [← digits]
      exact Nat.ofDigitChars_ten_toDigits
    unfold strtol
    rw [List.cons_append, List.dropWhile_cons_of_neg (by simp [noSpace])]
    have unsigned : (match d :: (ds ++ rest) with
        | '-' :: rest => (true, rest)
        | '+' :: rest => (false, rest)
        | rest => (false, rest)) = (false, d :: (ds ++ rest)) := by
      split
      · rename_i same
        exact absurd (List.cons.inj same).1 noMinus
      · rename_i same
        exact absurd (List.cons.inj same).1 noPlus
      · rfl
    simp only [unsigned]
    rw [← List.cons_append, number, tail, if_neg (by simp), value]
    simp only [Bool.false_eq_true, ↓reduceIte, Prod.mk.injEq, and_true]
    omega

theorem pushRange_eq (granted : ∀ cap, alloc cap = true) (left first : Nat) (arr : CpuArray)
    (small : first + left ≤ 2 ^ 32) :
    ∃ cap, pushRange alloc left first arr =
      some ⟨arr.cpus ++ List.range' first left, cap⟩ := by
  induction left generalizing first arr with
  | zero => exact ⟨arr.cap, by simp [pushRange]⟩
  | succ left ih =>
    have entry : ((first : Int) % 2 ^ 32).toNat = first := by omega
    have next : (first : Int) + 1 = ((first + 1 : Nat) : Int) := rfl
    unfold pushRange
    simp only [granted, ↓reduceIte, entry, next]
    split
    · obtain ⟨cap, pushed⟩ := ih (first + 1) ⟨arr.cpus ++ [first], arr.cap * 2⟩ (by omega)
      refine ⟨cap, pushed.trans ?_⟩
      simp [List.range'_succ]
    · obtain ⟨cap, pushed⟩ := ih (first + 1) ⟨arr.cpus ++ [first], arr.cap⟩ (by omega)
      refine ⟨cap, pushed.trans ?_⟩
      simp [List.range'_succ]

theorem length_toDigits_append (n : Nat) (rest : List Char) :
    rest.length ≠ (Nat.toDigits 10 n ++ rest).length := by
  have := @Nat.length_toDigits_pos 10 n
  rw [List.length_append]
  omega

/-- What comes behind an item: nothing, or a character that separates. -/
def Separated (rest : List Char) : Prop := ∀ c ∈ rest.head?, isSeparator c = true

theorem Separated.ends (separated : Separated rest) : EndsNumber rest :=
  fun c head => not_isDigit_of_isSeparator (separated c head)

theorem separated_append {white : List Char} (all : ∀ c ∈ white, isWhitespace c = true)
    (separated : Separated rest) : Separated (white ++ rest) := by
  cases white with
  | nil => exact separated
  | cons c white =>
    intro d head
    cases head
    simp [isSeparator, all c]

theorem rangeEnd_item (i : Item) (separated : Separated rest) :
    rangeEnd i.first ((if i.alone then [] else '-' :: Nat.toDigits 10 i.last) ++ i.after ++ rest) =
      ((i.last : Int), i.after ++ rest) := by
  have behind : Separated (i.after ++ rest) :=
    separated_append (fun c member => i.white c (List.mem_append_right _ member)) separated
  cases alone : i.alone with
  | true =>
    simp only [↓reduceIte, List.nil_append, ← i.single alone]
    unfold rangeEnd
    split
    · rename_i dash
      rw [dash] at behind
      exact absurd rfl (ne_dash_of_isSeparator (behind '-' rfl))
    · rfl
  | false =>
    have read := strtol_toDigits i.small behind.ends
    simp only [Bool.false_eq_true, ↓reduceIte, List.cons_append, List.append_assoc, rangeEnd, read]
    rw [if_pos ⟨length_toDigits_append _ _, Int.ofNat_le.mpr i.ordered⟩]

theorem dropWhile_separators {separators : List Char} (all : ∀ c ∈ separators, isSeparator c = true)
    (n : Nat) (rest : List Char) :
    (separators ++ (Nat.toDigits 10 n ++ rest)).dropWhile
        (fun c => isWhitespace c || c == ',') = Nat.toDigits 10 n ++ rest := by
  have all : ∀ c ∈ separators, (isWhitespace c || c == ',') = true := all
  rw [List.dropWhile_append_of_pos all]
  cases digits : Nat.toDigits 10 n with
  | nil => exact absurd digits Nat.toDigits_ne_nil
  | cons d ds =>
    have digit : d.isDigit = true := isDigit_of_mem_toDigits (digits ▸ List.mem_cons_self)
    have other : (isWhitespace d || d == ',') = false := (digit_cases digit).2.1
    rw [List.cons_append, List.dropWhile_cons_of_neg (by simp [other])]

theorem scanList_item (granted : ∀ cap, alloc cap = true) (rounds : Nat) (i : Item)
    {separators : List Char} (all : ∀ c ∈ separators, isSeparator c = true)
    (separated : Separated rest) (arr : CpuArray) :
    ∃ cap, scanList alloc (rounds + 1) (separators ++ i.print ++ rest) arr =
      scanList alloc rounds (i.after ++ rest) ⟨arr.cpus ++ i.numbers, cap⟩ := by
  have white : ∀ c ∈ separators ++ i.before, isSeparator c = true := by
    intro c member
    rcases List.mem_append.mp member with old | new
    · exact all c old
    · simp [isSeparator, i.white c (List.mem_append_left _ new)]
  have text : separators ++ i.print ++ rest = separators ++ i.before ++ (Nat.toDigits 10 i.first ++
      ((if i.alone then [] else '-' :: Nat.toDigits 10 i.last) ++ i.after ++ rest)) := by
    simp [Item.print]
  have behind : EndsNumber
      ((if i.alone then [] else '-' :: Nat.toDigits 10 i.last) ++ i.after ++ rest) := by
    cases i.alone with
    | true =>
      exact (separated_append (fun c member => i.white c (List.mem_append_right _ member))
        separated).ends
    | false =>
      intro c head
      cases head
      decide
  have first := strtol_toDigits (Nat.lt_of_le_of_lt i.ordered i.small) behind
  have count : ((i.last : Int) - i.first + 1).toNat = i.last + 1 - i.first := by
    have := i.ordered
    omega
  obtain ⟨cap, pushed⟩ := pushRange_eq granted (i.last + 1 - i.first) i.first arr (by
    have := i.small
    have := i.ordered
    omega)
  refine ⟨cap, ?_⟩
  rw [text, scanList]
  simp only [dropWhile_separators white, first, rangeEnd_item i separated, count, pushed]
  rw [if_neg (by simp), if_neg]
  · rfl
  · rintro (same | negative)
    · exact length_toDigits_append _ _ same
    · exact absurd negative (by omega)

/-- The items behind the first one, each with its comma, and the end of the list. -/
def tailText (items : List Item) (newline : Bool) : List Char :=
  items.flatMap (fun i => ',' :: i.print) ++ if newline then ['\n'] else []

theorem printCpulist_cons (i : Item) (items : List Item) (newline : Bool) :
    printCpulist (i :: items) newline = i.print ++ tailText items newline := by
  unfold printCpulist tailText
  rw [← List.append_assoc]
  congr 1
  induction items generalizing i with
  | nil => simp
  | cons j items ih =>
    have := ih j
    simp only [List.map_cons, List.intercalate_cons_cons] at this ⊢
    rw [this]
    simp

theorem separated_tailText (items : List Item) (newline : Bool) :
    Separated (tailText items newline) := by
  cases items with
  | nil =>
    cases newline with
    | true =>
      intro c head
      cases head
      decide
    | false =>
      intro c head
      cases head
  | cons i items =>
    intro c head
    cases head
    decide

theorem scanList_tailText (granted : ∀ cap, alloc cap = true) (items : List Item) (newline : Bool)
    (rounds : Nat) (enough : items.length < rounds) {separators : List Char}
    (all : ∀ c ∈ separators, isSeparator c = true) (arr : CpuArray) :
    ∃ cap, scanList alloc rounds (separators ++ tailText items newline) arr =
      some ⟨arr.cpus ++ numbers items, cap⟩ := by
  induction items generalizing rounds separators arr with
  | nil =>
    obtain ⟨rounds, rfl⟩ : ∃ r, rounds = r + 1 := ⟨rounds - 1, by simp at enough; omega⟩
    have blank : (separators ++ tailText [] newline).dropWhile
        (fun c => isWhitespace c || c == ',') = [] := by
      rw [List.dropWhile_eq_nil_iff]
      intro c member
      rcases List.mem_append.mp member with old | end_
      · exact all c old
      · cases newline with
        | true =>
          obtain rfl : c = '\n' := by simpa [tailText] using end_
          decide
        | false => simp [tailText] at end_
    refine ⟨arr.cap, ?_⟩
    rw [scanList]
    simp only [blank, ↓reduceIte]
    simp [numbers]
  | cons i items ih =>
    obtain ⟨rounds, rfl⟩ : ∃ r, rounds = r + 1 := ⟨rounds - 1, by simp at enough; omega⟩
    have comma : ∀ c ∈ separators ++ [','], isSeparator c = true := by
      intro c member
      rcases List.mem_append.mp member with old | new
      · exact all c old
      · obtain rfl : c = ',' := by simpa using new
        decide
    obtain ⟨cap, round⟩ := scanList_item granted rounds i comma (separated_tailText items newline) arr
    have text : separators ++ tailText (i :: items) newline =
        separators ++ [','] ++ i.print ++ tailText items newline := by
      simp [tailText]
    have after : ∀ c ∈ i.after, isSeparator c = true := by
      intro c member
      simp [isSeparator, i.white c (List.mem_append_right _ member)]
    obtain ⟨cap', scanned⟩ := ih rounds (by simpa using enough) after ⟨arr.cpus ++ i.numbers, cap⟩
    refine ⟨cap', ?_⟩
    rw [text, round, scanned]
    simp [numbers]

theorem length_tailText (items : List Item) (newline : Bool) :
    items.length ≤ (tailText items newline).length := by
  unfold tailText
  induction items with
  | nil => simp
  | cons i items ih =>
    simp only [List.flatMap_cons, List.length_append, List.length_cons] at ih ⊢
    omega

/-- The parser returns the numbers of a printed list, and their number as a uint32_t. -/
theorem parseCpulist_print (granted : ∀ cap, alloc cap = true) (i : Item) (items : List Item)
    (newline : Bool) :
    parseCpulist alloc (printCpulist (i :: items) newline) =
      some (numbers (i :: items), (numbers (i :: items)).length % 2 ^ 32) := by
  have bound := length_tailText items newline
  have after : ∀ c ∈ i.after, isSeparator c = true := by
    intro c member
    simp [isSeparator, i.white c (List.mem_append_right _ member)]
  obtain ⟨cap, round⟩ := @scanList_item alloc _ granted (printCpulist (i :: items) newline).length i
    [] (fun c clash => absurd clash List.not_mem_nil) (separated_tailText items newline) ⟨[], 16⟩
  obtain ⟨cap', scanned⟩ := scanList_tailText granted items newline
    (printCpulist (i :: items) newline).length (by
      have digits := @Nat.length_toDigits_pos 10 i.first
      rw [printCpulist_cons, List.length_append, Item.print]
      simp only [List.length_append]
      omega) after ⟨[] ++ i.numbers, cap⟩
  have nonempty : ([] : List Nat) ++ i.numbers ++ numbers items ≠ [] := by
    have := i.ordered
    simp only [List.nil_append, ne_eq, List.append_eq_nil_iff, Item.numbers, List.range'_eq_nil_iff]
    omega
  rw [List.nil_append, ← printCpulist_cons] at round
  unfold parseCpulist
  rw [if_pos (granted 16), round, scanned]
  simp only [if_neg nonempty]
  simp [numbers]

/-- Reading inverts printing as long as the numbers can be counted in 32 bits. -/
theorem cpulist_read_back (i : Item) (items : List Item) (newline : Bool) :
    parseCpulist (fun _ => true) (printCpulist (i :: items) newline) =
        some (numbers (i :: items), (numbers (i :: items)).length) ↔
      (numbers (i :: items)).length < 2 ^ 32 := by
  rw [parseCpulist_print (fun _ => rfl)]
  constructor
  · intro same
    have count := (Prod.mk.inj (Option.some.inj same)).2
    rw [← count]
    exact Nat.mod_lt _ (by decide)
  · intro few
    rw [Nat.mod_eq_of_lt few]

/-- 0-2147483647. -/
def fullRange : Item where
  first := 0
  last := 2147483647
  alone := false
  before := []
  after := []
  ordered := by decide
  small := by decide
  single := fun clash => by cases clash
  white := fun c clash => absurd clash List.not_mem_nil

theorem length_numbers_fullRange : (numbers [fullRange, fullRange]).length = 2 ^ 32 := by
  simp [numbers, Item.numbers, fullRange]

/-- "0-2147483647,0-2147483647" has 2 ^ 32 numbers and is reported with count 0. -/
theorem cpulist_count_wraps :
    parseCpulist (fun _ => true) (printCpulist [fullRange, fullRange] true) =
        some (numbers [fullRange, fullRange], 0) ∧
      parseCpulist (fun _ => true) (printCpulist [fullRange, fullRange] true) ≠
        some (numbers [fullRange, fullRange], (numbers [fullRange, fullRange]).length) := by
  have read : parseCpulist (fun _ => true) (printCpulist [fullRange, fullRange] true) =
      some (numbers [fullRange, fullRange], 0) := by
    rw [parseCpulist_print (fun _ => rfl), length_numbers_fullRange, Nat.mod_self]
  refine ⟨read, fun same => ?_⟩
  rw [read, length_numbers_fullRange] at same
  exact absurd (Prod.mk.inj (Option.some.inj same)).2 (by decide)

end Loomworks.Numa
