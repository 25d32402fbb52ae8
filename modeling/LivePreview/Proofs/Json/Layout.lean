import LivePreview.Proofs.Json.Scalars
import Mathlib.Data.List.DropRight

/-!
# Texts of values

`Lays` says how a value may be laid out, with blanks between its tokens.  However it is laid out, a
value is read from it (`read?_of_lays`), if its numbers read back and its members have names of
their own (`Readable`).  What is printed is one such layout, on one line or on several
(`lays_compactChars`, `lays_prettyChars`).
-/

namespace LivePreview.Json

/-- Whether a text is all blanks. -/
def Gap (cs : List Char) : Prop :=
  ∀ c ∈ cs, c = ' ' ∨ c = '\n' ∨ c = '\r' ∨ c = '\t'

/-! ## Layouts -/

mutual

/-- Whether a text is that of a value. -/
inductive Lays : Json → List Char → Prop where
  | null : Lays .null "null".toList
  | true : Lays (.bool true) "true".toList
  | false : Lays (.bool false) "false".toList
  | number (n : Number) : Lays (.number n) n.text.toList
  | string (s : String) : Lays (.string s) (quoted s)
  | emptyArray : Lays (.array []) ['[', ']']
  | array {items : List Json} {cs : List Char} (inside : LaysItems items cs) :
    Lays (.array items) ('[' :: cs ++ [']'])
  | emptyObject : Lays (.object []) ['\x7b', '\x7d']
  | object {members : List (String × Json)} {cs : List Char} (inside : LaysMembers members cs) :
    Lays (.object members) ('\x7b' :: cs ++ ['\x7d'])

/-- Whether a text is that of the items of an array. -/
inductive LaysItems : List Json → List Char → Prop where
  | last {item : Json} {before cs after : List Char} (blankBefore : Gap before)
    (lays : Lays item cs) (blankAfter : Gap after) : LaysItems [item] (before ++ (cs ++ after))
  | more {item : Json} {items : List Json} {before cs after rest : List Char}
    (blankBefore : Gap before) (lays : Lays item cs) (blankAfter : Gap after)
    (others : LaysItems items rest) :
    LaysItems (item :: items) (before ++ (cs ++ (after ++ ',' :: rest)))

/-- Whether a text is that of the members of an object. -/
inductive LaysMembers : List (String × Json) → List Char → Prop where
  | last (name : String) {value : Json} {before between cs after : List Char}
    (blankBefore : Gap before) (blankBetween : Gap between) (lays : Lays value cs)
    (blankAfter : Gap after) :
    LaysMembers [(name, value)] (before ++ (quoted name ++ ':' :: (between ++ (cs ++ after))))
  | more (name : String) {value : Json} {members : List (String × Json)}
    {before between cs after rest : List Char}
    (blankBefore : Gap before) (blankBetween : Gap between) (lays : Lays value cs)
    (blankAfter : Gap after) (others : LaysMembers members rest) :
    LaysMembers ((name, value) :: members)
      (before ++ (quoted name ++ ':' :: (between ++ (cs ++ (after ++ ',' :: rest)))))

end

/-- Whether a value can be read back: its numbers can, and no two members of an object have one
    name. -/
inductive Readable : Json → Prop where
  | null : Readable .null
  | bool (b : Bool) : Readable (.bool b)
  | number {n : Number} (reads : n.Reads) : Readable (.number n)
  | string (s : String) : Readable (.string s)
  | array {items : List Json} (each : ∀ item ∈ items, Readable item) : Readable (.array items)
  | object {members : List (String × Json)} (distinct : (members.map (·.1)).Nodup)
    (each : ∀ member ∈ members, Readable member.2) : Readable (.object members)

/-! ## Printing -/

theorem gap_nil : Gap [] :=
  nofun

theorem gap_newline (level : Nat) : Gap (newline level) := by
  intro c mem
  rcases List.mem_cons.mp mem with rfl | mem
  · exact .inr (.inl rfl)
  · exact .inl (List.eq_of_mem_replicate mem)

mutual

theorem lays_compactChars : (value : Json) → Lays value (compactChars value)
  | .null => .null
  | .bool true => .true
  | .bool false => .false
  | .number n => .number n
  | .string s => .string s
  | .array [] => .emptyArray
  | .array (item :: items) => by
    rw [compactChars]
    exact .array (laysItems_compactItems (item :: items) (List.cons_ne_nil _ _))
  | .object [] => .emptyObject
  | .object (member :: members) => by
    rw [compactChars]
    exact .object (laysMembers_compactMembers (member :: members) (List.cons_ne_nil _ _))

theorem laysItems_compactItems : (items : List Json) → items ≠ [] →
    LaysItems items (compactItems items)
  | [], filled => absurd rfl filled
  | [item], _ => by
    simpa [compactItems] using LaysItems.last gap_nil (lays_compactChars item) gap_nil
  | item :: next :: items, _ => by
    simpa [compactItems] using LaysItems.more gap_nil (lays_compactChars item) gap_nil
      (laysItems_compactItems (next :: items) (List.cons_ne_nil _ _))

theorem laysMembers_compactMembers : (members : List (String × Json)) → members ≠ [] →
    LaysMembers members (compactMembers members)
  | [], filled => absurd rfl filled
  | [(name, value)], _ => by
    simpa [compactMembers] using
      LaysMembers.last name gap_nil gap_nil (lays_compactChars value) gap_nil
  | (name, value) :: next :: members, _ => by
    simpa [compactMembers] using
      LaysMembers.more name gap_nil gap_nil (lays_compactChars value) gap_nil
        (laysMembers_compactMembers (next :: members) (List.cons_ne_nil _ _))

end

theorem gap_singleton : Gap [' '] := by
  simp [Gap]

mutual

theorem lays_prettyChars (level : Nat) : (value : Json) → Lays value (prettyChars level value)
  | .null => .null
  | .bool true => .true
  | .bool false => .false
  | .number n => .number n
  | .string s => .string s
  | .array [] => .emptyArray
  | .array (item :: items) => by
    rw [prettyChars]
    exact .array (laysItems_prettyItems (level + 1) (gap_newline level) (item :: items)
      (List.cons_ne_nil _ _))
  | .object [] => .emptyObject
  | .object (member :: members) => by
    rw [prettyChars]
    exact .object (laysMembers_prettyMembers (level + 1) (gap_newline level) (member :: members)
      (List.cons_ne_nil _ _))

/-- The blanks behind the items belong to the last one. -/
theorem laysItems_prettyItems (level : Nat) {close : List Char} (blank : Gap close) :
    (items : List Json) → items ≠ [] → LaysItems items (prettyItems level items ++ close)
  | [], filled => absurd rfl filled
  | [item], _ => by
    simpa [prettyItems] using
      LaysItems.last (gap_newline level) (lays_prettyChars level item) blank
  | item :: next :: items, _ => by
    have others := laysItems_prettyItems level blank (next :: items) (List.cons_ne_nil _ _)
    simpa [prettyItems] using
      LaysItems.more (gap_newline level) (lays_prettyChars level item) gap_nil others

theorem laysMembers_prettyMembers (level : Nat) {close : List Char} (blank : Gap close) :
    (members : List (String × Json)) → members ≠ [] →
      LaysMembers members (prettyMembers level members ++ close)
  | [], filled => absurd rfl filled
  | [(name, value)], _ => by
    simpa [prettyMembers] using
      LaysMembers.last name (gap_newline level) gap_singleton (lays_prettyChars level value) blank
  | (name, value) :: next :: members, _ => by
    have others := laysMembers_prettyMembers level blank (next :: members) (List.cons_ne_nil _ _)
    simpa [prettyMembers] using
      LaysMembers.more name (gap_newline level) gap_singleton (lays_prettyChars level value)
        gap_nil others

end

/-! ## Reading -/

section Reading

variable {value : Json} {cs gap before after tail : List Char} {c : Char} {fuel : Nat}

theorem skipBlanks_append (blank : Gap gap) : skipBlanks (gap ++ cs) = skipBlanks cs := by
  refine List.dropWhile_append_of_pos fun c mem => ?_
  simpa [or_assoc] using blank c mem

theorem skipBlanks_skipBlanks (cs : List Char) : skipBlanks (skipBlanks cs) = skipBlanks cs :=
  List.dropWhile_idempotent _ cs

/-- Whether a character may be the first one of a value. -/
def Begins (c : Char) : Prop :=
  c ∈ "\"-[\x7bntf".toList ∨ c.isDigit

instance (c : Char) : Decidable (Begins c) :=
  inferInstanceAs (Decidable (_ ∨ _))

/-- Whether a character may stand behind a value. -/
def Follows (c : Char) : Prop :=
  c = ',' ∨ c = ']' ∨ c = '\x7d'

instance (c : Char) : Decidable (Follows c) :=
  inferInstanceAs (Decidable (_ ∨ _))

theorem skipBlanks_begins (blank : Gap gap) (begins : Begins c) :
    skipBlanks (gap ++ c :: cs) = c :: cs := by
  rw [skipBlanks_append blank]
  refine List.dropWhile_cons_of_neg fun white => ?_
  simp only [Bool.or_eq_true, decide_eq_true_eq] at white
  rcases white with ((rfl | rfl) | rfl) | rfl <;> exact absurd begins (by decide)

theorem skipBlanks_follows (blank : Gap gap) (follows : Follows c) :
    skipBlanks (gap ++ c :: cs) = c :: cs := by
  rw [skipBlanks_append blank]
  rcases follows with rfl | rfl | rfl <;> rfl

/-- What stands behind a value is no part of a number. -/
theorem stops_follows (blank : Gap gap) (follows : Follows c) : Stops (gap ++ c :: tail) := by
  intro d first
  cases gap with
  | nil =>
    obtain rfl : c = d := Option.some.inj first
    rcases follows with rfl | rfl | rfl <;> decide
  | cons e gap =>
    obtain rfl : e = d := Option.some.inj first
    rcases blank e List.mem_cons_self with rfl | rfl | rfl | rfl <;> decide

theorem quoted_append (s : String) (tail : List Char) :
    quoted s ++ tail = '"' :: (s.toList.flatMap escapeChar ++ '"' :: tail) := by
  simp [quoted]

theorem Lays.begins (lays : Lays value cs) (readable : Readable value) :
    ∃ c more, cs = c :: more ∧ Begins c := by
  cases lays with
  | number n =>
    cases readable with
    | number reads =>
      obtain ⟨c, more, text, minus | digit⟩ := begins_of_readNumber? reads
      · exact ⟨c, more, text, .inl (by simp [minus])⟩
      · exact ⟨c, more, text, .inr digit⟩
  | _ => exact ⟨_, _, rfl, .inl (by decide)⟩

theorem LaysItems.begins {items : List Json} (lays : LaysItems items cs)
    (readable : ∀ item ∈ items, Readable item) :
    ∃ gap c more, Gap gap ∧ cs = gap ++ c :: more ∧ Begins c := by
  cases lays with
  | last blankBefore lays blankAfter =>
    obtain ⟨c, more, rfl, begins⟩ := lays.begins (readable _ List.mem_cons_self)
    exact ⟨_, c, _, blankBefore, rfl, begins⟩
  | more blankBefore lays blankAfter others =>
    obtain ⟨c, more, rfl, begins⟩ := lays.begins (readable _ List.mem_cons_self)
    exact ⟨_, c, _, blankBefore, rfl, begins⟩

theorem LaysMembers.begins {members : List (String × Json)} (lays : LaysMembers members cs) :
    ∃ gap more, Gap gap ∧ cs = gap ++ '"' :: more := by
  cases lays with
  | last name blankBefore blankBetween lays blankAfter =>
    exact ⟨_, _, blankBefore, by rw [quoted_append]⟩
  | more name blankBefore blankBetween lays blankAfter others =>
    exact ⟨_, _, blankBefore, by rw [quoted_append]⟩

/-! ### Steps of the reader -/

theorem readValue?_number (begins : c = '-' ∨ c.isDigit) :
    readValue? (fuel + 1) (c :: cs) =
      (readNumber? (c :: cs)).map fun (n, rest) => (.number n, rest) := by
  unfold readValue?
  split <;> simp_all

theorem readItems?_skipBlanks (back : List Json) :
    readItems? fuel back (skipBlanks cs) = readItems? fuel back cs := by
  cases fuel with
  | zero => rfl
  | succ fuel => rw [readItems?, readItems?, skipBlanks_skipBlanks]

theorem readMembers?_skipBlanks (known : List (String × Json)) :
    readMembers? fuel known (skipBlanks cs) = readMembers? fuel known cs := by
  cases fuel with
  | zero => rfl
  | succ fuel => rw [readMembers?, readMembers?, skipBlanks_skipBlanks]

theorem readValue?_array (blank : Gap gap) (begins : Begins c) :
    readValue? (fuel + 1) ('[' :: (gap ++ c :: cs)) = readItems? fuel [] (gap ++ c :: cs) := by
  have start : skipBlanks (gap ++ c :: cs) = c :: cs := skipBlanks_begins blank begins
  rw [readValue?, ← readItems?_skipBlanks, start]
  split
  · next close =>
    obtain ⟨rfl, -⟩ := List.cons.inj close
    exact absurd begins (by decide)
  · rfl

theorem readValue?_object (blank : Gap gap) :
    readValue? (fuel + 1) ('\x7b' :: (gap ++ '"' :: cs)) =
      readMembers? fuel [] (gap ++ '"' :: cs) := by
  have start : skipBlanks (gap ++ '"' :: cs) = '"' :: cs := skipBlanks_begins blank (by decide)
  rw [readValue?, ← readMembers?_skipBlanks, start]
  rfl

/-- How an array goes on behind an item; `back` holds the items so far, last first. -/
def afterItem (fuel : Nat) (back : List Json) : List Char → Option (Json × List Char)
  | ',' :: rest => readItems? fuel back rest
  | ']' :: rest => some (.array back.reverse, rest)
  | _ => none

/-- How an object goes on behind a member. -/
def afterMember (fuel : Nat) (members : List (String × Json)) :
    List Char → Option (Json × List Char)
  | ',' :: rest => readMembers? fuel members rest
  | '\x7d' :: rest => some (.object members, rest)
  | _ => none

theorem readItems?_item {item : Json} (blankBefore : Gap before) (lays : Lays item cs)
    (readable : Readable item) (blankAfter : Gap after) (follows : Follows c)
    (reads : readValue? fuel (cs ++ (after ++ c :: tail)) = some (item, after ++ c :: tail))
    (back : List Json) :
    readItems? (fuel + 1) back (before ++ (cs ++ (after ++ c :: tail))) =
      afterItem fuel (item :: back) (c :: tail) := by
  have start : skipBlanks (before ++ (cs ++ (after ++ c :: tail))) =
      cs ++ (after ++ c :: tail) := by
    obtain ⟨d, more, rfl, begins⟩ := lays.begins readable
    exact skipBlanks_begins blankBefore begins
  rw [readItems?, start, reads]
  dsimp only
  rw [skipBlanks_follows blankAfter follows]
  rfl

theorem insertMember_of_fresh {members : List (String × Json)} {name : String}
    (fresh : name ∉ members.map (·.1)) (value : Json) :
    insertMember members name value = members ++ [(name, value)] := by
  refine if_neg ?_
  simpa using fresh

theorem fresh_of_distinct {known members : List (String × Json)} {name : String}
    (distinct : ((known ++ (name, value) :: members).map (·.1)).Nodup) :
    name ∉ known.map (·.1) := by
  rw [List.map_append, List.map_cons] at distinct
  intro mem
  exact (List.nodup_append.mp distinct).2.2 name mem name List.mem_cons_self rfl

theorem readMembers?_member {known : List (String × Json)} {name : String} {between : List Char}
    (blankBefore : Gap before) (fresh : name ∉ known.map (·.1)) (blankBetween : Gap between)
    (lays : Lays value cs) (readable : Readable value) (blankAfter : Gap after)
    (follows : Follows c)
    (reads : readValue? fuel (cs ++ (after ++ c :: tail)) = some (value, after ++ c :: tail)) :
    readMembers? (fuel + 1) known
        (before ++ (quoted name ++ ':' :: (between ++ (cs ++ (after ++ c :: tail))))) =
      afterMember fuel (known ++ [(name, value)]) (c :: tail) := by
  have start : skipBlanks (between ++ (cs ++ (after ++ c :: tail))) =
      cs ++ (after ++ c :: tail) := by
    obtain ⟨d, more, rfl, begins⟩ := lays.begins readable
    exact skipBlanks_begins blankBetween begins
  have colon : skipBlanks (':' :: (between ++ (cs ++ (after ++ c :: tail)))) =
      ':' :: (between ++ (cs ++ (after ++ c :: tail))) := rfl
  rw [quoted_append, readMembers?, skipBlanks_begins blankBefore (by decide)]
  simp only [readString?_escaped, colon, start, reads, skipBlanks_follows blankAfter follows,
    insertMember_of_fresh fresh]
  rfl

end Reading

/-! ### Whole values -/

mutual

theorem Lays.reads {value : Json} {cs : List Char} (lays : Lays value cs)
    (readable : Readable value) {fuel : Nat} (enough : cs.length ≤ fuel) {tail : List Char}
    (stops : Stops tail) : readValue? fuel (cs ++ tail) = some (value, tail) := by
  -- a value has a character at least, so there is fuel for a step of the reader
  obtain ⟨fuel, rfl⟩ : ∃ k, fuel = k + 1 := by
    obtain ⟨c, more, rfl, -⟩ := lays.begins readable
    exact Nat.exists_eq_add_one.mpr (Nat.lt_of_lt_of_le (Nat.succ_pos _) enough)
  cases lays with
  | null => rfl
  | true => rfl
  | false => rfl
  | number n =>
    cases readable with
    | number reads =>
      obtain ⟨c, more, text, begins⟩ := begins_of_readNumber? reads
      have reads := readNumber?_append stops reads
      rw [text, List.cons_append] at reads ⊢
      rw [readValue?_number begins, reads]
      rfl
  | string s => rw [quoted_append, readValue?, readString?_escaped, Option.map_some]
  | emptyArray => rfl
  | array inside =>
    cases readable with
    | array each =>
      simp only [List.length_append, List.length_cons, List.length_nil] at enough
      have reads : readItems? fuel [] _ = some (_, tail) := inside.reads each (by omega) []
      obtain ⟨gap, c, more, blank, rfl, begins⟩ := inside.begins each
      simp only [List.append_assoc, List.cons_append, List.nil_append] at reads ⊢
      rw [readValue?_array blank begins, reads]
      rfl
  | emptyObject => rfl
  | object inside =>
    cases readable with
    | object distinct each =>
      simp only [List.length_append, List.length_cons, List.length_nil] at enough
      have reads : readMembers? fuel [] _ = some (_, tail) :=
        inside.reads each (by omega) [] distinct
      obtain ⟨gap, more, blank, rfl⟩ := inside.begins
      simp only [List.append_assoc, List.cons_append, List.nil_append] at reads ⊢
      rw [readValue?_object blank, reads]
termination_by sizeOf value

theorem LaysItems.reads {items : List Json} {cs : List Char} (lays : LaysItems items cs)
    (readable : ∀ item ∈ items, Readable item) {fuel : Nat} (enough : cs.length < fuel)
    (back : List Json) {tail : List Char} :
    readItems? fuel back (cs ++ ']' :: tail) = some (.array (back.reverse ++ items), tail) := by
  obtain ⟨fuel, rfl⟩ : ∃ k, fuel = k + 1 := Nat.exists_eq_add_one.mpr (by omega)
  cases lays with
  | @last item before cs after blankBefore lays blankAfter =>
    have here := readable item List.mem_cons_self
    simp only [List.length_append] at enough
    have reads : readValue? fuel (cs ++ (after ++ ']' :: tail)) =
        some (item, after ++ ']' :: tail) :=
      lays.reads here (by omega) (stops_follows blankAfter (by decide))
    simp only [List.append_assoc]
    rw [readItems?_item blankBefore lays here blankAfter (by decide) reads back, afterItem,
      List.reverse_cons]
  | @more item items before cs after rest blankBefore lays blankAfter others =>
    have here := readable item List.mem_cons_self
    simp only [List.length_append, List.length_cons] at enough
    have reads : readValue? fuel (cs ++ (after ++ ',' :: (rest ++ ']' :: tail))) =
        some (item, after ++ ',' :: (rest ++ ']' :: tail)) :=
      lays.reads here (by omega) (stops_follows blankAfter (by decide))
    simp only [List.append_assoc, List.cons_append]
    rw [readItems?_item blankBefore lays here blankAfter (by decide) reads back]
    have there := fun item mem => readable item (List.mem_cons_of_mem _ mem)
    exact (others.reads there (by omega) _).trans (by simp)
termination_by sizeOf items

theorem LaysMembers.reads {members : List (String × Json)} {cs : List Char}
    (lays : LaysMembers members cs) (readable : ∀ member ∈ members, Readable member.2)
    {fuel : Nat} (enough : cs.length < fuel) (known : List (String × Json))
    (distinct : ((known ++ members).map (·.1)).Nodup) {tail : List Char} :
    readMembers? fuel known (cs ++ '\x7d' :: tail) = some (.object (known ++ members), tail) := by
  obtain ⟨fuel, rfl⟩ : ∃ k, fuel = k + 1 := Nat.exists_eq_add_one.mpr (by omega)
  cases lays with
  | @last name value before between cs after blankBefore blankBetween lays blankAfter =>
    have here := readable (name, value) List.mem_cons_self
    have fresh := fresh_of_distinct distinct
    simp only [List.length_append, List.length_cons] at enough
    have reads : readValue? fuel (cs ++ (after ++ '\x7d' :: tail)) =
        some (value, after ++ '\x7d' :: tail) :=
      lays.reads here (by omega) (stops_follows blankAfter (by decide))
    simp only [List.append_assoc, List.cons_append]
    rw [readMembers?_member blankBefore fresh blankBetween lays here blankAfter (by decide) reads]
    rfl
  | @more name value members before between cs after rest blankBefore blankBetween lays blankAfter
      others =>
    have here := readable (name, value) List.mem_cons_self
    have fresh := fresh_of_distinct distinct
    simp only [List.length_append, List.length_cons] at enough
    have reads : readValue? fuel (cs ++ (after ++ ',' :: (rest ++ '\x7d' :: tail))) =
        some (value, after ++ ',' :: (rest ++ '\x7d' :: tail)) :=
      lays.reads here (by omega) (stops_follows blankAfter (by decide))
    simp only [List.append_assoc, List.cons_append]
    rw [readMembers?_member blankBefore fresh blankBetween lays here blankAfter (by decide) reads]
    rw [List.append_cons known (name, value) members] at distinct ⊢
    have there := fun member mem => readable member (List.mem_cons_of_mem _ mem)
    have shorter : rest.length < fuel := by omega
    exact others.reads there shorter _ distinct
termination_by sizeOf members

end

/-- A value is read from its text, with blanks around it. -/
theorem read?_of_lays {value : Json} {before cs after : List Char} (readable : Readable value)
    (blankBefore : Gap before) (lays : Lays value cs) (blankAfter : Gap after) :
    read? (String.ofList (before ++ (cs ++ after))) = some value := by
  have start : skipBlanks (before ++ (cs ++ after)) = cs ++ after := by
    obtain ⟨c, more, rfl, begins⟩ := lays.begins readable
    exact skipBlanks_begins blankBefore begins
  have stops : Stops after := by
    intro c first
    rcases blankAfter c (List.mem_of_mem_head? first) with rfl | rfl | rfl | rfl <;> decide
  have none : skipBlanks after = [] := by
    have skipped : skipBlanks (after ++ []) = [] := skipBlanks_append blankAfter
    rwa [List.append_nil] at skipped
  have reads : readValue? (2 * (before ++ (cs ++ after)).length + 2) (cs ++ after) =
      some (value, after) :=
    lays.reads readable (by simp only [List.length_append]; omega) stops
  rw [read?, String.toList_ofList]
  simp only [start, reads, none, List.isEmpty_nil, if_true]

/-- What is printed of a value, in either way, is read as that value. -/
theorem read?_printed {value : Json} (readable : Readable value) :
    read? value.compact = some value ∧ read? value.pretty = some value := by
  have compact := read?_of_lays readable gap_nil (lays_compactChars value) gap_nil
  have pretty := read?_of_lays readable gap_nil (lays_prettyChars 0 value) gap_nil
  rw [List.nil_append, List.append_nil] at compact pretty
  exact ⟨compact, pretty⟩

end LivePreview.Json
