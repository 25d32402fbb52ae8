import LivePreview.Json.Printer
import LivePreview.Json.Reader
import LivePreview.Proofs.Text.Cuts
import LivePreview.Proofs.Text.Digits

/-!
# Texts of strings and numbers

What is printed of a string is read as that string (`readString?_escaped`).  A number that reads
back from its own text does so in front of everything that cannot belong to a number
(`readNumber?_append`); whole numbers of 64 bits read back (`natural_reads`).
-/

namespace LivePreview

theorem head?_toDigits_ne_zero {n : Nat} (positive : 0 < n) :
    (Nat.toDigits 10 n).head? ≠ some '0' := by
  induction n using Nat.strongRecOn with
  | ind n ih =>
    by_cases single : n < 10
    · rw [Nat.toDigits_of_lt_base single, List.head?_cons, ne_eq, Option.some.injEq,
        Nat.digitChar_eq_zero]
      omega
    · have filled : Nat.toDigits 10 (n / 10) ≠ [] := Nat.toDigits_ne_nil
      obtain ⟨c, cs, digits⟩ := List.exists_cons_of_ne_nil filled
      have first := ih (n / 10) (by omega) (by omega)
      rw [Nat.toDigits_of_base_le (by decide) (by omega), digits]
      rwa [digits] at first

namespace Json

variable {back rest : List Char}

/-! ## Strings -/

theorem hexFour?_of_control : ∀ n < 32,
    hexFour? '0' '0' (Text.hexDigit (n / 16)) (Text.hexDigit (n % 16)) = some n := by
  decide

/-- A character is escaped by a letter, or by its number, or stands for itself. -/
theorem escapeChar_cases (c : Char) :
    (∃ letter, escapeChar c = ['\\', letter] ∧ letter ≠ 'u' ∧ escapeValue? letter = some c) ∨
      (c.toNat < 32 ∧ escapeChar c =
        ['\\', 'u', '0', '0', Text.hexDigit (c.toNat / 16), Text.hexDigit (c.toNat % 16)]) ∨
      (escapeChar c = [c] ∧ c ≠ '"' ∧ c ≠ '\\' ∧ ¬ c.toNat < 32) := by
  unfold escapeChar
  split_ifs with quote backslash _ _ _ _ _ control <;>
    first
    | exact .inr (.inr ⟨rfl, quote, backslash, control⟩)
    | exact .inr (.inl ⟨control, rfl⟩)
    | (subst c; exact .inl ⟨_, rfl, by decide, rfl⟩)

theorem readString?_escapeChar (c : Char) :
    readString? back (escapeChar c ++ rest) = readString? (c :: back) rest := by
  rcases escapeChar_cases c with ⟨letter, escaped, notNumber, value⟩ | ⟨control, escaped⟩ |
    ⟨plain, notQuote, notBackslash, printable⟩
  · rw [escaped, List.cons_append, List.singleton_append, readString?, value]
    exact fun _ _ _ _ _ number => absurd number notNumber
  · have number := hexFour?_of_control c.toNat control
    rw [escaped]
    simp only [List.cons_append, List.nil_append]
    rw [readString?, number]
    dsimp only
    rw [if_neg (by omega), if_neg (by omega), Char.ofNat_toNat]
  · rw [plain, List.singleton_append]
    simp [readString?, notBackslash, printable]

theorem readString?_chars (cs : List Char) :
    readString? back (cs.flatMap escapeChar ++ '"' :: rest) =
      some (String.ofList (back.reverse ++ cs), rest) := by
  induction cs generalizing back with
  | nil => rw [List.flatMap_nil, List.nil_append, readString?, List.append_nil]
  | cons c cs ih =>
    rw [List.flatMap_cons, List.append_assoc, readString?_escapeChar, ih, List.reverse_cons,
      List.append_assoc, List.singleton_append]

theorem readString?_escaped (s : String) :
    readString? [] (s.toList.flatMap escapeChar ++ '"' :: rest) = some (s, rest) := by
  rw [readString?_chars, List.reverse_nil, List.nil_append, String.ofList_toList]

/-! ## Numbers -/

variable {cs tail : List Char}

/-- Whether a text does not go on with what may belong to a number. -/
def Stops (tail : List Char) : Prop :=
  ∀ c ∈ tail.head?, c.isDigit = false ∧ c ≠ '.' ∧ c ≠ 'e' ∧ c ≠ 'E'

theorem span_append {kind : Char → Bool} (stops : ∀ c ∈ tail.head?, kind c = false) :
    (cs ++ tail).span kind = ((cs.span kind).1, (cs.span kind).2 ++ tail) := by
  simp only [List.span_eq_takeWhile_dropWhile]
  induction cs with
  | nil =>
    cases tail with
    | nil => rfl
    | cons c tail => simp [stops c rfl]
  | cons c cs ih =>
    rw [Prod.mk.injEq] at ih
    cases here : kind c <;> simp [here, ih]

/-- Whether a text starts with digits, and goes on with the rest. -/
def HasDigits (cs digits rest : List Char) : Prop :=
  digits ≠ [] ∧ cs.span Char.isDigit = (digits, rest)

theorem HasDigits.append {digits : List Char} (has : HasDigits cs digits rest)
    (stops : Stops tail) : HasDigits (cs ++ tail) digits (rest ++ tail) := by
  refine ⟨has.1, ?_⟩
  rw [span_append fun c mem => (stops c mem).1, has.2]

/-- A whole number has digits, and a zero in front only if it is the only one. -/
theorem wholeDigits?_eq_some_iff {digits : List Char} :
    wholeDigits? cs = some (digits, rest) ↔
      HasDigits cs digits rest ∧ ∀ c more, digits ≠ '0' :: c :: more := by
  rw [wholeDigits?, HasDigits]
  rcases cs.span Char.isDigit with ⟨_ | ⟨c, _ | ⟨d, more⟩⟩, after⟩
  · grind
  · grind
  · by_cases zero : c = '0'
    · subst zero
      grind
    · simp [zero]
      grind

theorem fraction?_point_eq_some_iff {digits : Option (List Char)} :
    fraction? ('.' :: cs) = some (digits, rest) ↔
      ∃ places, digits = some places ∧ HasDigits cs places rest := by
  simp only [fraction?, HasDigits]
  rcases cs.span Char.isDigit with ⟨_ | ⟨c, more⟩, after⟩ <;> grind

theorem fraction?_of_other (other : cs.head? ≠ some '.') : fraction? cs = some (none, cs) := by
  rw [fraction?]
  rintro more rfl
  exact other rfl

theorem fraction?_append {digits : Option (List Char)} (stops : Stops tail)
    (reads : fraction? cs = some (digits, rest)) :
    fraction? (cs ++ tail) = some (digits, rest ++ tail) := by
  by_cases point : cs.head? = some '.'
  · obtain ⟨more, rfl⟩ := List.head?_eq_some_iff.mp point
    obtain ⟨places, same, has⟩ := fraction?_point_eq_some_iff.mp reads
    exact fraction?_point_eq_some_iff.mpr ⟨places, same, has.append stops⟩
  · rw [fraction?_of_other point, Option.some.injEq, Prod.mk.injEq] at reads
    obtain ⟨rfl, rfl⟩ := reads
    refine fraction?_of_other fun first => ?_
    cases cs with
    | nil => exact (stops _ first).2.1 rfl
    | cons c cs => exact point first

/-- The sign of an exponent, and what is behind it. -/
def signed : List Char → Int × List Char
  | '-' :: cs => (-1, cs)
  | '+' :: cs => (1, cs)
  | cs => (1, cs)

theorem signed_append (filled : cs ≠ []) :
    signed (cs ++ tail) = ((signed cs).1, (signed cs).2 ++ tail) := by
  obtain ⟨c, cs, rfl⟩ := List.exists_cons_of_ne_nil filled
  rw [List.cons_append]
  unfold signed
  split <;> split <;> simp_all

theorem exponent?_mark_eq_some_iff {c : Char} (mark : c = 'e' ∨ c = 'E')
    {exponent : Option Int} :
    exponent? (c :: cs) = some (exponent, rest) ↔
      ∃ digits, exponent = some ((signed cs).1 * (digitsNat digits : Int)) ∧
        HasDigits (signed cs).2 digits rest := by
  simp only [exponent?, if_pos mark]
  split
  · next run =>
    refine iff_of_false nofun ?_
    rintro ⟨digits, -, filled, has⟩
    exact filled (Prod.mk.inj (has.symm.trans run)).1
  · next filled run =>
    constructor
    · rintro ⟨⟩
      exact ⟨_, rfl, filled, run⟩
    · rintro ⟨digits, rfl, -, has⟩
      obtain ⟨rfl, rfl⟩ := Prod.mk.inj (has.symm.trans run)
      rfl

theorem exponent?_of_other (other : ∀ c ∈ cs.head?, ¬ (c = 'e' ∨ c = 'E')) :
    exponent? cs = some (none, cs) := by
  cases cs with
  | nil => rfl
  | cons c cs =>
    unfold exponent?
    exact if_neg (other c rfl)

theorem exponent?_append {exponent : Option Int} (stops : Stops tail)
    (reads : exponent? cs = some (exponent, rest)) :
    exponent? (cs ++ tail) = some (exponent, rest ++ tail) := by
  by_cases marked : ∃ c ∈ cs.head?, c = 'e' ∨ c = 'E'
  · obtain ⟨c, first, mark⟩ := marked
    obtain ⟨more, rfl⟩ := List.head?_eq_some_iff.mp first
    obtain ⟨digits, same, has⟩ := (exponent?_mark_eq_some_iff mark).mp reads
    have filled : more ≠ [] := by
      rintro rfl
      exact has.1 (congrArg Prod.fst has.2).symm
    rw [List.cons_append, exponent?_mark_eq_some_iff mark]
    refine ⟨digits, ?_⟩
    rw [signed_append filled]
    exact ⟨same, has.append stops⟩
  · have other : ∀ c ∈ cs.head?, ¬ (c = 'e' ∨ c = 'E') :=
      fun c first mark => marked ⟨c, first, mark⟩
    rw [exponent?_of_other other, Option.some.injEq, Prod.mk.injEq] at reads
    obtain ⟨rfl, rfl⟩ := reads
    refine exponent?_of_other fun c first => ?_
    cases cs with
    | nil => exact not_or.mpr (stops c first).2.2
    | cons d cs => exact other c first

/-- Whether a text starts with a minus sign, and what is behind it. -/
def unsign : List Char → Bool × List Char
  | '-' :: cs => (true, cs)
  | cs => (false, cs)

theorem unsign_append (filled : cs ≠ []) :
    unsign (cs ++ tail) = ((unsign cs).1, (unsign cs).2 ++ tail) := by
  obtain ⟨c, cs, rfl⟩ := List.exists_cons_of_ne_nil filled
  rw [List.cons_append]
  unfold unsign
  split <;> split <;> simp_all

/-- The number that its parts stand for. -/
def assembled (negative : Bool) (whole : List Char) (fraction : Option (List Char))
    (exponent : Option Int) : Number :=
  match fraction, exponent with
  | none, none =>
    if negative then
      if digitsNat whole = 0 ∨ 1 <<< 63 < digitsNat whole then
        .float (decimalFloat true (digitsNat whole) 0)
      else .negative (digitsNat whole)
    else if digitsNat whole < 1 <<< 64 then .natural (digitsNat whole)
    else .float (decimalFloat false (digitsNat whole) 0)
  | _, _ =>
    .float (decimalFloat negative (digitsNat (whole ++ fraction.getD []))
      (exponent.getD 0 - (fraction.getD []).length))

theorem readNumber?_eq_some_iff {n : Number} :
    readNumber? cs = some (n, rest) ↔
      ∃ whole afterWhole fraction afterFraction exponent,
        wholeDigits? (unsign cs).2 = some (whole, afterWhole) ∧
        fraction? afterWhole = some (fraction, afterFraction) ∧
        exponent? afterFraction = some (exponent, rest) ∧
        assembled (unsign cs).1 whole fraction exponent = n := by
  have parts : readNumber? cs = (wholeDigits? (unsign cs).2).bind fun whole =>
      (fraction? whole.2).bind fun fraction =>
        (exponent? fraction.2).bind fun exponent =>
          some (assembled (unsign cs).1 whole.1 fraction.1 exponent.1, exponent.2) := rfl
  rw [parts]
  simp only [Option.bind_eq_some_iff, Prod.exists, Option.some.injEq, Prod.mk.injEq]
  grind

theorem readNumber?_append {n : Number} (stops : Stops tail)
    (reads : readNumber? cs = some (n, rest)) :
    readNumber? (cs ++ tail) = some (n, rest ++ tail) := by
  have filled : cs ≠ [] := by
    rintro rfl
    cases reads
  rw [readNumber?_eq_some_iff] at reads ⊢
  rw [unsign_append filled]
  obtain ⟨whole, afterWhole, fraction, afterFraction, exponent, first, second, third, same⟩ := reads
  obtain ⟨has, plain⟩ := wholeDigits?_eq_some_iff.mp first
  exact ⟨whole, _, fraction, _, exponent, wholeDigits?_eq_some_iff.mpr ⟨has.append stops, plain⟩,
    fraction?_append stops second, exponent?_append stops third, same⟩

theorem begins_of_readNumber? {n : Number} (reads : readNumber? cs = some (n, rest)) :
    ∃ c more, cs = c :: more ∧ (c = '-' ∨ c.isDigit) := by
  obtain ⟨whole, afterWhole, -, -, -, first, -⟩ := readNumber?_eq_some_iff.mp reads
  obtain ⟨⟨filled, run⟩, -⟩ := wholeDigits?_eq_some_iff.mp first
  rw [List.span_eq_takeWhile_dropWhile, Prod.mk.injEq] at run
  cases cs with
  | nil => exact absurd run.1.symm filled
  | cons c cs =>
    refine ⟨c, cs, rfl, ?_⟩
    by_cases minus : c = '-'
    · exact .inl minus
    · have same : (unsign (c :: cs)).2 = c :: cs := by
        unfold unsign
        split <;> simp_all
      rw [same] at run
      cases digit : c.isDigit with
      | true => exact .inr rfl
      | false => simp [digit, eq_comm, filled] at run

/-- Whether a number is read back from its own text. -/
def Number.Reads (n : Number) : Prop :=
  readNumber? n.text.toList = some (n, [])

theorem natural_reads {n : Nat} (bound : n < Text.wordLimit) : (Number.natural n).Reads := by
  have numeral := Text.denotes_toDigits n
  have value : digitsNat (Nat.toDigits 10 n) = n := numeral.2
  have plain : unsign (Nat.toDigits 10 n) = (false, Nat.toDigits 10 n) := by
    unfold unsign
    split
    · next minus => exact absurd (numeral.1 '-' (minus ▸ List.mem_cons_self)) (by decide)
    · rfl
  have has : HasDigits (Nat.toDigits 10 n) (Nat.toDigits 10 n) [] := by
    refine ⟨Nat.toDigits_ne_nil, ?_⟩
    rw [List.span_eq_takeWhile_dropWhile, List.takeWhile_eq_self_iff.mpr numeral.1,
      List.dropWhile_eq_nil_iff.mpr numeral.1]
  have noZero (c : Char) (more : List Char) : Nat.toDigits 10 n ≠ '0' :: c :: more := by
    intro digits
    rcases Nat.eq_zero_or_pos n with rfl | positive
    · cases digits
    · exact head?_toDigits_ne_zero positive (congrArg List.head? digits)
  rw [Number.Reads, Number.text, Nat.toString_eq_repr, Nat.toList_repr, readNumber?_eq_some_iff,
    plain]
  refine ⟨_, [], none, [], none, wholeDigits?_eq_some_iff.mpr ⟨has, noZero⟩, rfl, rfl, ?_⟩
  rw [assembled, if_neg Bool.false_ne_true, value]
  exact if_pos bound

end Json

end LivePreview
