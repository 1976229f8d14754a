import Mathlib
import Script.Proofs.Number.Order
import Script.Proofs.Text.Classes
import Script.Value.Equality

/-!
Texts as numbers. A grammar says which decimals there are and what they are worth. The general
reader takes up all of them and more; what it takes besides is just what is foreign to programs, so
that any text without a place in the grammar is no number.
-/

namespace Script

namespace Decimal

inductive Sign : List Char → Bool → Prop
  | none : Sign [] false
  | plus : Sign ['+'] false
  | minus : Sign ['-'] true

abbrev Digits : List Char → List Nat → Prop :=
  List.Forall₂ fun c v => Text.digitValue? c = some v

def count (vs : List Nat) : Nat := Nat.ofDigits 10 vs.reverse

/-- Digits before a point and behind it. The point may be missing, and the digits of one side. -/
inductive Mantissa : List Char → List Nat → List Nat → Prop
  | whole {ds vs} (digits : Digits ds vs) (some : ds ≠ []) : Mantissa ds vs []
  | point {ds vs fs ws} (digits : Digits ds vs) (some : ds ≠ []) (others : Digits fs ws) :
      Mantissa (ds ++ '.' :: fs) vs ws
  | bare {fs ws} (others : Digits fs ws) (some : fs ≠ []) : Mantissa ('.' :: fs) [] ws

inductive Power : List Char → Int → Prop
  | none : Power [] 0
  | some {mark sign negative ds vs} (marks : mark = 'e' ∨ mark = 'E') (signs : Sign sign negative)
      (digits : Digits ds vs) (some : ds ≠ []) :
      Power (mark :: (sign ++ ds)) (if negative then -count vs else count vs)

/-- The text is a decimal with a sign, digits and a power of ten; the sign and the power may be
missing. -/
inductive Spells : List Char → Bool → Decimal → Prop
  | mk {sign negative mantissa whole fraction power e} (signs : Sign sign negative)
      (digits : Mantissa mantissa whole fraction) (powers : Power power e) :
      Spells (sign ++ (mantissa ++ power)) negative
        ⟨count (whole ++ fraction), e - fraction.length⟩

section Values

theorem ofDigits_eq_count (vs : List Nat) : Text.ofDigits vs = count vs := by
  rw [count, Nat.ofDigits_eq_foldr, List.foldr_reverse, Text.ofDigits]
  simp only [Nat.add_comm, Nat.cast_id]

theorem ofDigits_eq (whole fraction : List Nat) (e : Int) :
    ofDigits whole fraction e = ⟨count (whole ++ fraction), e - fraction.length⟩ := by
  rw [ofDigits, ofDigits_eq_count]

end Values

section Reader

variable {cs ds rest sign : List Char} {vs ws : List Nat} {negative : Bool} {e : Int}

def Stops (cs : List Char) : Prop := ∀ c ∈ cs.head?, Text.digitValue? c = none

def Unsigned (cs : List Char) : Prop := ∀ c ∈ cs.head?, c ≠ '-' ∧ c ≠ '+'

theorem takeDigits_append (digits : Digits ds vs) (stops : Stops rest) :
    takeDigits (ds ++ rest) = (vs, rest) := by
  induction digits with
  | nil =>
      cases rest with
      | nil => rfl
      | cons c rest =>
          rw [List.nil_append, takeDigits, stops c rfl]
  | cons first _ again =>
      rw [List.cons_append, takeDigits, first]
      dsimp only
      rw [again]

theorem takeDigits_spec (cs : List Char) :
    ∃ ds, cs = ds ++ (takeDigits cs).2 ∧ Digits ds (takeDigits cs).1 ∧ Stops (takeDigits cs).2 := by
  induction cs with
  | nil => exact ⟨[], rfl, .nil, nofun⟩
  | cons c rest again =>
      rw [takeDigits]
      cases digit : Text.digitValue? c with
      | none =>
          refine ⟨[], rfl, .nil, fun d first => ?_⟩
          cases first
          exact digit
      | some v =>
          obtain ⟨ds, same, digits, stops⟩ := again
          exact ⟨c :: ds, congrArg (c :: ·) same, .cons digit digits, stops⟩

theorem takeSign_append (signs : Sign sign negative) (free : Unsigned rest) :
    takeSign (sign ++ rest) = (negative, rest) := by
  cases signs with
  | plus => rfl
  | minus => rfl
  | none =>
      rw [List.nil_append]
      unfold takeSign
      split
      · exact absurd rfl (free '-' rfl).1
      · exact absurd rfl (free '+' rfl).2
      · rfl

theorem takeSign_spec (cs : List Char) :
    ∃ sign, cs = sign ++ (takeSign cs).2 ∧ Sign sign (takeSign cs).1 := by
  unfold takeSign
  split
  · exact ⟨['-'], rfl, .minus⟩
  · exact ⟨['+'], rfl, .plus⟩
  · exact ⟨[], rfl, .none⟩

theorem Digits.unsigned (digits : Digits ds vs) (some : ds ≠ []) (rest : List Char) :
    Unsigned (ds ++ rest) := by
  cases digits with
  | nil => exact absurd rfl some
  | @cons c v ds vs first others =>
      intro d head
      cases head
      constructor
      · rintro rfl
        cases first
      · rintro rfl
        cases first

theorem exponent?_eq_some : exponent? cs = some e ↔ Power cs e := by
  constructor
  · intro read
    unfold exponent? at read
    split at read
    · cases read
      exact .none
    · next c rest =>
        split at read
        · next marks =>
            obtain ⟨sign, same, signs⟩ := takeSign_spec rest
            generalize takeSign rest = signed at read same signs
            obtain ⟨ds, same', digits, -⟩ := takeDigits_spec signed.2
            dsimp only at read
            split at read
            · next d vs taken =>
                rw [taken] at same' digits
                have some : ds ≠ [] := by
                  rintro rfl
                  cases digits
                cases read
                rw [same, same', List.append_nil, ofDigits_eq_count]
                exact .some marks signs digits some
            · cases read
        · cases read
  · rintro (_ | ⟨marks, signs, digits, some⟩)
    · rfl
    · next mark sign negative ds vs =>
        have sign := takeSign_append signs (List.append_nil ds ▸ digits.unsigned some [])
        have ends : Stops [] := nofun
        have taken := takeDigits_append digits ends
        rw [List.append_nil] at taken
        cases digits with
        | nil => exact absurd rfl some
        | cons first others =>
            simp only [exponent?, if_pos marks, sign, taken, ofDigits_eq_count]

theorem takeFraction_append (digits : Digits ds vs) (stops : Stops rest) :
    takeFraction ('.' :: (ds ++ rest)) = (vs, rest) :=
  takeDigits_append digits stops

theorem takeFraction_of_head (free : ∀ c ∈ cs.head?, c ≠ '.') : takeFraction cs = ([], cs) := by
  unfold takeFraction
  split
  · exact absurd rfl (free '.' rfl)
  · rfl

theorem Mantissa.unsigned {mantissa : List Char} (digits : Mantissa mantissa vs ws)
    (rest : List Char) : Unsigned (mantissa ++ rest) := by
  cases digits with
  | whole digits some => exact digits.unsigned some rest
  | point digits some others =>
      rw [List.append_assoc]
      exact digits.unsigned some _
  | bare others some =>
      intro c head
      cases head
      decide

theorem Power.head {power : List Char} (powers : Power power e) :
    ∀ c ∈ power.head?, c = 'e' ∨ c = 'E' := by
  cases powers with
  | none => nofun
  | some marks =>
      intro c head
      cases head
      exact marks

theorem Power.stops {power : List Char} (powers : Power power e) : Stops power := by
  intro c head
  rcases powers.head c head with rfl | rfl <;> rfl

theorem Power.takeFraction_eq {power : List Char} (powers : Power power e) :
    takeFraction power = ([], power) := by
  refine takeFraction_of_head fun c head => ?_
  rcases powers.head c head with rfl | rfl <;> decide

theorem Mantissa.taken {mantissa power : List Char} (digits : Mantissa mantissa vs ws)
    (powers : Power power e) :
    ∃ rest, takeDigits (mantissa ++ power) = (vs, rest) ∧ takeFraction rest = (ws, power) ∧
      ¬ (vs = [] ∧ ws = []) := by
  cases digits with
  | whole digits some =>
      refine ⟨power, takeDigits_append digits powers.stops, powers.takeFraction_eq, ?_⟩
      rintro ⟨rfl, -⟩
      cases digits
      exact some rfl
  | @point ds vs fs ws digits some others =>
      have stops : Stops ('.' :: (fs ++ power)) := by
        intro c head
        cases head
        rfl
      refine ⟨_, ?_, takeFraction_append others powers.stops, ?_⟩
      · rw [List.append_assoc]
        exact takeDigits_append digits stops
      · rintro ⟨rfl, -⟩
        cases digits
        exact some rfl
  | @bare fs ws others some =>
      refine ⟨_, rfl, takeFraction_append others powers.stops, ?_⟩
      rintro ⟨-, rfl⟩
      cases others
      exact some rfl

theorem read?_eq (cs : List Char) : read? cs =
    let signed := takeSign cs
    let whole := takeDigits signed.2
    let fraction := takeFraction whole.2
    if whole.1 = [] ∧ fraction.1 = [] then none
    else (exponent? fraction.2).map fun e => (signed.1, ofDigits whole.1 fraction.1 e) := by
  simp only [read?, Bool.and_eq_true, List.isEmpty_iff]
  split
  · rfl
  · rw [Option.map_eq_bind]
    rfl

theorem takeFraction_spec (cs : List Char) :
    (takeFraction cs = ([], cs) ∨
      ∃ fs, cs = '.' :: (fs ++ (takeFraction cs).2) ∧ Digits fs (takeFraction cs).1) := by
  unfold takeFraction
  split
  · next rest =>
      obtain ⟨fs, same, digits, -⟩ := takeDigits_spec rest
      exact .inr ⟨fs, congrArg ('.' :: ·) same, digits⟩
  · exact .inl rfl

theorem Mantissa.of_taken {ds rest' : List Char} (digits : Digits ds vs)
    (fraction : takeFraction rest = (ws, rest')) (some : ¬ (vs = [] ∧ ws = [])) :
    ∃ mantissa, ds ++ rest = mantissa ++ rest' ∧ Mantissa mantissa vs ws := by
  have spec := takeFraction_spec rest
  rw [fraction] at spec
  rcases spec with none | ⟨fs, same, others⟩
  · cases none
    refine ⟨ds, rfl, .whole digits ?_⟩
    rintro rfl
    cases digits
    exact some ⟨rfl, rfl⟩
  · rw [same]
    cases digits with
    | nil =>
        refine ⟨'.' :: fs, rfl, .bare others ?_⟩
        rintro rfl
        cases others
        exact some ⟨rfl, rfl⟩
    | cons first more =>
        refine ⟨_, ?_, .point (.cons first more) (List.cons_ne_nil _ _) others⟩
        simp

/-- The reader takes up all of a text exactly if the text is a decimal. -/
theorem read?_eq_some {d : Decimal} : read? cs = some (negative, d) ↔ Spells cs negative d := by
  rw [read?_eq]
  constructor
  · intro read
    obtain ⟨sign, same, signs⟩ := takeSign_spec cs
    dsimp only at read
    generalize takeSign cs = signed at read same signs
    obtain ⟨ds, same', digits, -⟩ := takeDigits_spec signed.2
    generalize takeDigits signed.2 = whole at read same' digits
    cases fraction : takeFraction whole.2 with
    | mk ws rest =>
        simp only [fraction] at read
        split at read
        · cases read
        · next some =>
            obtain ⟨e, powers, known⟩ := Option.map_eq_some_iff.mp read
            obtain ⟨mantissa, split, known'⟩ := Mantissa.of_taken digits fraction some
            cases known
            rw [same, same', split, ofDigits_eq]
            exact .mk signs known' (exponent?_eq_some.mp powers)
  · rintro ⟨signs, digits, powers⟩
    obtain ⟨rest, taken, fraction, some⟩ := digits.taken powers
    simp only [takeSign_append signs (digits.unsigned _), taken, fraction, if_neg some,
      exponent?_eq_some.mpr powers, Option.map_some, ofDigits_eq]

def marks : List Char := ['+', '-', '.', 'e', 'E']

/-- Decimals are made up of such characters. -/
def Known (c : Char) : Prop := (Text.digitValue? c).isSome ∨ c ∈ marks

theorem Sign.known (signs : Sign sign negative) : ∀ c ∈ sign, Known c := by
  cases signs with
  | none => exact List.forall_mem_nil _
  | plus => exact List.forall_mem_singleton.mpr (.inr (.head _))
  | minus => exact List.forall_mem_singleton.mpr (.inr (.tail _ (.head _)))

theorem Digits.known (digits : Digits ds vs) : ∀ c ∈ ds, Known c := by
  induction digits with
  | nil => exact List.forall_mem_nil _
  | cons first _ again =>
      refine List.forall_mem_cons.mpr ⟨.inl ?_, again⟩
      rw [first]
      rfl

theorem Mantissa.known {mantissa : List Char} (digits : Mantissa mantissa vs ws) :
    mantissa ≠ [] ∧ ∀ c ∈ mantissa, Known c := by
  have point : Known '.' := .inr (by decide)
  cases digits with
  | whole digits some => exact ⟨some, digits.known⟩
  | point digits some others =>
      refine ⟨List.append_ne_nil_of_left_ne_nil some _, List.forall_mem_append.mpr ⟨digits.known, ?_⟩⟩
      exact List.forall_mem_cons.mpr ⟨point, others.known⟩
  | bare others some =>
      exact ⟨List.cons_ne_nil _ _, List.forall_mem_cons.mpr ⟨point, others.known⟩⟩

theorem Power.known {power : List Char} (powers : Power power e) : ∀ c ∈ power, Known c := by
  cases powers with
  | none => exact List.forall_mem_nil _
  | some marks signs digits some =>
      refine List.forall_mem_cons.mpr ⟨.inr ?_, List.forall_mem_append.mpr ⟨signs.known, digits.known⟩⟩
      rcases marks with rfl | rfl <;> decide

theorem Spells.known {d : Decimal} (spells : Spells cs negative d) :
    cs ≠ [] ∧ ∀ c ∈ cs, Known c := by
  obtain ⟨signs, digits, powers⟩ := spells
  obtain ⟨some, known⟩ := digits.known
  refine ⟨List.append_ne_nil_of_right_ne_nil _ (List.append_ne_nil_of_left_ne_nil some _), ?_⟩
  exact List.forall_mem_append.mpr
    ⟨signs.known, List.forall_mem_append.mpr ⟨known, powers.known⟩⟩

end Reader

end Decimal

namespace Number

open Decimal (Sign Spells)

/-- What a text is worth that has no blanks at its ends. -/
inductive Reads : List Char → Number → Prop
  | blank : Reads [] 0
  | infinite {sign negative} (signs : Sign sign negative) :
      Reads (sign ++ "Infinity".toList) (if negative then -infinity else infinity)
  | decimal {cs negative d} (spells : Spells cs negative d) : Reads cs (d.toNumber negative)

variable {cs rest sign : List Char} {x : Number} {negative : Bool} {d : Decimal}

section Foreign

theorem dropWhile_sign (signs : Sign sign negative) (free : Decimal.Unsigned rest) :
    (sign ++ rest).dropWhile isSign = rest := by
  have stays : rest.dropWhile isSign = rest := by
    cases rest with
    | nil => rfl
    | cons c rest =>
        obtain ⟨minus, plus⟩ := free c rfl
        have other : isSign c = false := by
          rw [isSign, decide_eq_false plus, decide_eq_false minus]
          rfl
        rw [List.dropWhile_cons, other]
        rfl
  cases signs with
  | none => exact stays
  | plus => exact stays
  | minus => exact stays

theorem word?_head (word : word? cs = some x) :
    ∃ c rest, cs = c :: rest ∧ Text.isLetter c = true := by
  have lower : ∃ d ds, cs.map Char.toLower = d :: ds ∧ d.isLower = true := by
    unfold word? at word
    dsimp only at word
    split at word
    · next infinite =>
        rcases infinite with same | same
        · exact ⟨_, _, same, rfl⟩
        · exact ⟨_, _, same, rfl⟩
    · split at word
      · next same => exact ⟨_, _, same, rfl⟩
      · cases word
  obtain ⟨d, ds, same, lower⟩ := lower
  obtain ⟨c, rest, split, rfl, -⟩ := List.map_eq_cons_iff.mp same
  rw [Char.isLower_toLower_eq_isAlpha] at lower
  exact ⟨c, rest, split, Text.isLetter_alpha lower⟩

theorem isForeign_of_word (word : word? (Decimal.takeSign cs).2 = some x) :
    isForeign cs = true := by
  obtain ⟨sign, same, signs⟩ := Decimal.takeSign_spec cs
  obtain ⟨c, rest, split, letter⟩ := word?_head word
  have free : Decimal.Unsigned (c :: rest) := by
    intro d head
    cases head
    constructor
    · rintro rfl
      exact absurd letter (by decide)
    · rintro rfl
      exact absurd letter (by decide)
  rw [split] at same
  rw [isForeign, same, dropWhile_sign signs free, List.head?_cons, Option.any_some, letter]
  rfl

theorem dropSeparators?_of_none (none : '_' ∉ cs) : dropSeparators? cs = some cs := by
  fun_induction dropSeparators? cs with
  | case1 => rfl
  | case2 c d rest digits again => exact absurd (List.mem_cons_of_mem c List.mem_cons_self) none
  | case3 c d rest digits => exact absurd (List.mem_cons_of_mem c List.mem_cons_self) none
  | case4 rest => exact absurd List.mem_cons_self none
  | case5 c rest apart other again =>
      rw [again fun member => none (List.mem_cons_of_mem c member)]
      rfl

/-- Without foreign spellings the general reader reads decimals alone. -/
theorem parse?_of_plain (plain : isForeign cs = false) :
    parse? cs = (Decimal.read? cs).map fun (negative, d) => d.toNumber negative := by
  have word : word? (Decimal.takeSign cs).2 = none := by
    by_contra some
    obtain ⟨x, word⟩ := Option.ne_none_iff_exists'.mp some
    rw [isForeign_of_word word] at plain
    cases plain
  have none : '_' ∉ cs := by
    rw [isForeign, Bool.or_eq_false_iff] at plain
    rw [← List.contains_iff_mem, plain.2]
    exact Bool.false_ne_true
  unfold parse?
  simp only [word, dropSeparators?_of_none none, Option.bind_some]

theorem not_foreign_of_spells (spells : Spells cs negative d) : isForeign cs = false := by
  have none : cs.contains '_' = false := by
    rw [← Bool.not_eq_true, List.contains_iff_mem]
    intro member
    have known := spells.known.2 '_' member
    unfold Decimal.Known at known
    revert known
    decide
  rw [isForeign, none, Bool.or_false]
  obtain ⟨signs, digits, powers⟩ := spells
  rw [dropWhile_sign signs (digits.unsigned _)]
  have first {ds vs} (digits : Decimal.Digits ds vs) (some : ds ≠ []) (rest : List Char) :
      (ds ++ rest).head?.any Text.isLetter = false := by
    cases digits with
    | nil => exact absurd rfl some
    | cons first others =>
        have digit : (Text.digitValue? _).isSome := Option.isSome_of_mem first
        exact Text.isLetter_digit digit
  cases digits with
  | whole digits some => exact first digits some _
  | point digits some others =>
      rw [List.append_assoc]
      exact first digits some _
  | bare others some => rfl

/-- What the general reader takes besides decimals is just what is foreign. -/
theorem isForeign_iff (parsed : parse? cs = some x) :
    isForeign cs = true ↔ ¬ ∃ negative d, Spells cs negative d := by
  constructor
  · rintro foreign ⟨negative, d, spells⟩
    rw [not_foreign_of_spells spells] at foreign
    cases foreign
  · intro strange
    by_contra plain
    rw [parse?_of_plain (Bool.not_eq_true _ |>.mp plain)] at parsed
    obtain ⟨⟨negative, d⟩, read, -⟩ := Option.map_eq_some_iff.mp parsed
    exact strange ⟨negative, d, Decimal.read?_eq_some.mp read⟩

end Foreign

theorem Reads.isNaN (reads : Reads cs x) : x.isNaN = false := by
  cases reads with
  | blank => decide
  | infinite signs =>
      cases signs <;> decide +kernel
  | decimal => exact isNaN_ofUnits _ _

theorem ne_infinite_of_spells {negative : Bool} {d : Decimal} (spells : Spells cs negative d)
    (sign : List Char) : cs ≠ sign ++ "Infinity".toList := by
  rintro rfl
  have known := spells.known.2 'I' (List.mem_append_right _ (by decide))
  unfold Decimal.Known at known
  revert known
  decide

theorem ofTrimmed_of_reads (reads : Reads cs x) : ofTrimmed cs = x := by
  cases reads with
  | blank => exact if_pos rfl
  | infinite signs =>
      cases signs with
      | none => exact (if_neg (by decide)).trans (if_pos (by decide))
      | plus => exact (if_neg (by decide)).trans (if_pos (by decide))
      | minus =>
          exact (if_neg (by decide)).trans ((if_neg (by decide)).trans (if_pos (by decide)))
  | decimal spells =>
      have finite := ne_infinite_of_spells spells
      have plus : ¬ (cs = "Infinity".toList ∨ cs = "+Infinity".toList) :=
        not_or.mpr ⟨finite [], finite ['+']⟩
      have minus : ¬ cs = "-Infinity".toList := finite ['-']
      have plain := not_foreign_of_spells spells
      have parsed := parse?_of_plain plain
      rw [Decimal.read?_eq_some.mpr spells, Option.map_some] at parsed
      rw [ofTrimmed, if_neg spells.known.1, if_neg plus, if_neg minus, parsed]
      dsimp only
      rw [plain]
      exact if_neg Bool.false_ne_true

theorem ofTrimmed_of_not (strange : ∀ x, ¬ Reads cs x) : ofTrimmed cs = nan := by
  unfold ofTrimmed
  split
  · next same => exact absurd (same ▸ .blank) (strange 0)
  · split
    · next same =>
        rcases same with rfl | rfl
        · exact absurd (.infinite .none) (strange _)
        · exact absurd (.infinite .plus) (strange _)
    · split
      · next same =>
          subst same
          exact absurd (.infinite .minus) (strange _)
      · split
        · rfl
        · next x parsed =>
            have foreign : isForeign cs = true := by
              rw [isForeign_iff parsed]
              rintro ⟨negative, d, spells⟩
              exact strange _ (.decimal spells)
            exact if_pos foreign

/-- A text is read as a number exactly if, without the blanks at its ends, it is empty, an infinity
or a decimal, and then as what it is worth. With any other letter or mark in it, it is no number. -/
theorem text_read_exactly (s : String) : ∃ x, (Value.string s).toNumber? = some x ∧
    (x.isNaN = false ↔ ∃ y, Reads (Text.trim s.toList) y) ∧
    (∀ y, Reads (Text.trim s.toList) y → x = y) ∧
    ((∃ c ∈ Text.trim s.toList, ¬ Decimal.Known c) →
      (∀ sign negative, Sign sign negative → Text.trim s.toList ≠ sign ++ "Infinity".toList) →
      x.isNaN = true) := by
  generalize trimmed : Text.trim s.toList = cs
  have read : (Value.string s).toNumber? = some (ofTrimmed cs) := by
    rw [Value.toNumber?, ofText, trimmed]
  have number : (ofTrimmed cs).isNaN = false ↔ ∃ y, Reads cs y := by
    constructor
    · intro number
      by_contra strange
      rw [ofTrimmed_of_not (not_exists.mp strange)] at number
      revert number
      decide +kernel
    · rintro ⟨y, reads⟩
      rw [ofTrimmed_of_reads reads]
      exact reads.isNaN
  refine ⟨_, read, number, fun y => ofTrimmed_of_reads, ?_⟩
  rintro ⟨c, member, strange⟩ finite
  rw [← Bool.not_eq_false, number]
  rintro ⟨y, _ | signs | spells⟩
  · cases member
  · exact finite _ _ signs rfl
  · exact strange (spells.known.2 c member)

end Number

end Script
