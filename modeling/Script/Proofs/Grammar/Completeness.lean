import Script.Proofs.Grammar.Beginning
import Script.Proofs.Grammar.Passing
import Script.Proofs.Grammar.Tables

/-!
Whatever is derived is read. A chain of connectives, and what follows an operand, are derived from
the left but read in a loop, so the statements about them go on from where the loop stands: if the
loop gives `f` after what is derived, the reader gives `f` from before it.
-/

namespace Script

def Parse.Gives {α : Type} {bound : Nat} (p : Parse α bound) (a : α) (next : Cursor) : Prop :=
  ∃ shorter, p = .ok ⟨a, next, shorter⟩

namespace Grammar

theorem Binds.unique {op : Operator} {level other : Nat} {left right : Connective}
    (binds : Binds op level left) (binds' : Binds op other right) :
    level = other ∧ left = right := by
  cases binds <;> cases binds' <;> exact ⟨rfl, rfl⟩

theorem Binds.not_extends {op : Operator} {level : Nat} {connective : Connective}
    (binds : Binds op (level + 1) connective) : ¬ Extends level (.operator op) := by
  intro extend
  cases extend with
  | connective binds' within =>
      have same := (binds.unique binds').1
      omega

theorem Extends.mono {level wider : Nat} {kind : Kind} (extend : Extends level kind)
    (within : level ≤ wider) : Extends wider kind := by
  cases extend with
  | member => exact .member
  | index => exact .index
  | call => exact .call
  | connective binds within' => exact .connective binds (Nat.le_trans within' within)

/-- Wherever the loop over connectives goes on from `left` at `c`, it gives `f` and stops at `d`. -/
def ChainGives (tighter : Nat) (left : Expr) (c : Cursor) (f : Expr) (d : Cursor) : Prop :=
  ∀ bound (shorter : c.remaining < bound), (chainRest tighter left c shorter).Gives f d

def PostfixGives (object : Expr) (c : Cursor) (f : Expr) (d : Cursor) : Prop :=
  ∀ bound (shorter : c.remaining < bound), (postfixRest object c shorter).Gives f d

section Loops

variable {c d m : Cursor} {tighter : Nat} {left right object position f : Expr}
  {arguments : List Expr} {t dot name opening closing : Token} {text : String} {w : List Token}

theorem chainGives_stop (apart : ¬ Extends (tighter + 1) c.kind) :
    ChainGives tighter left c left c := by
  intro bound shorter
  have unread : Connective.atLevel? (tighter + 1) c.kind = none := by
    rw [Option.eq_none_iff_forall_ne_some]
    intro connective found
    obtain ⟨op, operator, binds⟩ := Connective.atLevel?_eq_some_iff.mp found
    rw [operator] at apart
    exact apart (.connective binds (Nat.le_refl _))
  refine ⟨shorter, ?_⟩
  rw [chainRest, Cursor.takeAs_of_refused unread]

theorem chainGives_connective {op : Operator} {connective : Connective}
    (passes : c.Passes (t :: w) m) (operator : t.kind = .operator op)
    (binds : Binds op (tighter + 1) connective)
    (after : ∀ e, e.Passes w m → (chain tighter e).Gives right m)
    (rest : ChainGives tighter (connective.join t.pos left right) m f d) :
    ChainGives tighter left c f d := by
  intro bound shorter
  have known := Connective.atLevel?_eq_some_iff.mpr ⟨op, operator, binds⟩
  obtain ⟨e, afterConnective, taken, passes⟩ := Cursor.takeAs_of_passes passes known
  obtain ⟨afterRight, rightReads⟩ := after e passes
  have further : m.remaining < bound := by
    calc
      m.remaining < e.remaining := afterRight
      _ < c.remaining := afterConnective
      _ < bound := shorter
  obtain ⟨within, restReads⟩ := rest bound further
  refine ⟨within, ?_⟩
  rw [chainRest, taken]
  simp only [rightReads]
  exact restReads

theorem postfixGives_stop (apart : ¬ Extends 0 c.kind) : PostfixGives object c object c := by
  intro bound shorter
  have noDot : c.kind ≠ .punct .dot := fun same => apart (same ▸ .member)
  have noBracket : c.kind ≠ .punct .openBracket := fun same => apart (same ▸ .index)
  have noParen : c.kind ≠ .punct .openParen := fun same => apart (same ▸ .call)
  refine ⟨shorter, ?_⟩
  rw [postfixRest]
  simp only [Cursor.takeMark?, Cursor.take?_of_ne noDot, Cursor.take?_of_ne noBracket,
    Cursor.take?_of_ne noParen]

theorem postfixRest_member {dot : Step Token c.remaining} {bound : Nat}
    (taken : c.take? (.punct .dot) = some dot) (shorter : c.remaining < bound) :
    postfixRest object c shorter = (do
      let name ← dot.next.expectAs Kind.name? .propertyName
      postfixRest (.member dot.value.pos object name.value.2 name.value.1.pos) name.next
        (Nat.lt_trans name.shorter (Nat.lt_trans dot.shorter shorter))) := by
  rw [postfixRest]
  simp only [Cursor.takeMark?, taken]

theorem postfixRest_index {opening : Step Token c.remaining} {bound : Nat}
    (taken : c.take? (.punct .openBracket) = some opening) (shorter : c.remaining < bound) :
    postfixRest object c shorter = (do
      let position ← chain Connective.loosest opening.next
      let closing ← position.next.expectMark .closeBracket
      postfixRest (.index opening.value.pos object position.value) closing.next
        (Nat.lt_trans closing.shorter
          (Nat.lt_trans position.shorter (Nat.lt_trans opening.shorter shorter)))) := by
  have noDot : c.kind ≠ .punct .dot := Cursor.kind_of_take? taken ▸ nofun
  rw [postfixRest]
  simp only [Cursor.takeMark?, Cursor.take?_of_ne noDot, taken]

theorem postfixRest_call {opening : Step Token c.remaining} {bound : Nat}
    (taken : c.take? (.punct .openParen) = some opening) (shorter : c.remaining < bound) :
    postfixRest object c shorter = (do
      let arguments ← items .closeParen opening.next
      postfixRest (.call opening.value.pos object arguments.value) arguments.next
        (Nat.lt_trans arguments.shorter (Nat.lt_trans opening.shorter shorter))) := by
  have here := Cursor.kind_of_take? taken
  have noDot : c.kind ≠ .punct .dot := here ▸ nofun
  have noBracket : c.kind ≠ .punct .openBracket := here ▸ nofun
  rw [postfixRest]
  simp only [Cursor.takeMark?, Cursor.take?_of_ne noDot, Cursor.take?_of_ne noBracket, taken]

theorem postfixGives_member (passes : c.Passes [dot, name] m) (pointed : dot.kind = .punct .dot)
    (named : name.kind = .identifier text)
    (rest : PostfixGives (.member dot.pos object text name.pos) m f d) :
    PostfixGives object c f d := by
  intro bound shorter
  obtain ⟨e, afterDot, taken, passes⟩ := Cursor.take?_of_passes passes pointed
  obtain ⟨m', afterName, nameReads, last⟩ := Cursor.expectAs_of_passes passes
    (Kind.name?_eq_some_iff.mpr named) .propertyName
  cases last.unique (.refl m')
  have further : m.remaining < bound := by
    calc
      m.remaining < e.remaining := afterName
      _ < c.remaining := afterDot
      _ < bound := shorter
  obtain ⟨within, restReads⟩ := rest bound further
  refine ⟨within, ?_⟩
  rw [postfixRest_member taken]
  simp only [nameReads]
  exact restReads

theorem postfixGives_index (passes : c.Passes (opening :: w ++ [closing]) m)
    (opens : opening.kind = .punct .openBracket) (closes : closing.kind = .punct .closeBracket)
    (inside : ∀ e d, e.Passes w d → d.kind = closing.kind →
      (chain Connective.loosest e).Gives position d)
    (rest : PostfixGives (.index opening.pos object position) m f d) :
    PostfixGives object c f d := by
  intro bound shorter
  obtain ⟨e, afterOpening, taken, passes⟩ := Cursor.take?_of_passes passes opens
  obtain ⟨e', passes, last⟩ := passes.split
  obtain ⟨afterPosition, positionReads⟩ := inside e e' passes last.kind
  obtain ⟨m', afterClosing, closingReads, last⟩ := Cursor.expectMark_of_passes last closes
  cases last.unique (.refl m')
  have further : m.remaining < bound := by
    calc
      m.remaining < e'.remaining := afterClosing
      _ < e.remaining := afterPosition
      _ < c.remaining := afterOpening
      _ < bound := shorter
  obtain ⟨within, restReads⟩ := rest bound further
  refine ⟨within, ?_⟩
  rw [postfixRest_index taken]
  simp only [positionReads, bind, Except.bind, closingReads]
  exact restReads

theorem postfixGives_call (passes : c.Passes (opening :: w) m)
    (opens : opening.kind = .punct .openParen)
    (inside : ∀ e, e.Passes w m → (items .closeParen e).Gives arguments m)
    (rest : PostfixGives (.call opening.pos object arguments) m f d) :
    PostfixGives object c f d := by
  intro bound shorter
  obtain ⟨e, afterOpening, taken, passes⟩ := Cursor.take?_of_passes passes opens
  obtain ⟨afterArguments, argumentsRead⟩ := inside e passes
  have further : m.remaining < bound := by
    calc
      m.remaining < e.remaining := afterArguments
      _ < c.remaining := afterOpening
      _ < bound := shorter
  obtain ⟨within, restReads⟩ := rest bound further
  refine ⟨within, ?_⟩
  rw [postfixRest_call taken]
  simp only [argumentsRead]
  exact restReads

end Loops

/-- What a derived chain means to its reader. A chain with connectives is read up to where the loop
over its level stands. -/
def ChainRead : Nat → List Token → Expr → Prop
  | 0, w, e => ∀ c d, c.Passes w d → ¬ Extends 0 d.kind → (chain 0 c).Gives e d
  | tighter + 1, w, e => ∀ c m f d, c.Passes w m → ¬ Extends tighter m.kind →
      ChainGives tighter e m f d → (chain (tighter + 1) c).Gives f d

theorem ChainRead.whole {level : Nat} {w : List Token} {e : Expr} (read : ChainRead level w e)
    {c d : Cursor} (passes : c.Passes w d) (apart : ¬ Extends level d.kind) :
    (chain level c).Gives e d := by
  cases level with
  | zero => exact read c d passes apart
  | succ tighter =>
      have tight : ¬ Extends tighter d.kind := fun extend => apart (extend.mono (Nat.le_succ _))
      exact read c d e d passes tight (chainGives_stop apart)

theorem not_extends_mark {level : Nat} {mark : Punct} (dot : mark ≠ .dot)
    (bracket : mark ≠ .openBracket) (paren : mark ≠ .openParen) :
    ¬ Extends level (.punct mark) := by
  intro extend
  cases extend with
  | member => exact dot rfl
  | index => exact bracket rfl
  | call => exact paren rfl

theorem Begins.ne_mark {kind : Kind} (begins : Begins kind) (mark : Punct)
    (bracket : mark ≠ .openBracket) (paren : mark ≠ .openParen) : kind ≠ .punct mark := by
  rintro rfl
  cases begins with
  | operand begins =>
      cases begins with
      | literal denotes => cases denotes
      | array => exact bracket rfl
      | group => exact paren rfl
  | unary leads => cases leads

theorem Begins.ne_keyword {kind : Kind} (begins : Begins kind) (word : Keyword)
    (other : word ∉ [.true, .false, .null, .undefined, .typeof]) : kind ≠ .keyword word := by
  rintro rfl
  cases begins with
  | operand begins =>
      cases begins with
      | literal denotes => cases denotes <;> simp at other
  | unary leads =>
      cases leads
      simp at other

theorem Begins.undeclared {kind : Kind} (begins : Begins kind) : declKind? kind = none := by
  cases begins with
  | operand begins =>
      cases begins with
      | literal denotes => cases denotes <;> rfl
      | name | array | group => rfl
  | unary leads => cases leads <;> rfl

theorem BeginsOperand.not_leads {kind : Kind} (begins : BeginsOperand kind) :
    UnaryOp.ofKind? kind = none := by
  cases begins with
  | literal denotes => cases denotes <;> rfl
  | name | array | group => rfl

theorem Heads.kind {kinds : Kind → Prop} {w : List Token} (heads : Heads kinds w) {c d : Cursor}
    (passes : c.Passes w d) : kinds c.kind := by
  obtain ⟨t, u, rfl, first⟩ := heads
  exact passes.kind ▸ first

def Brackets (closing : Punct) : Prop := closing = .closeParen ∨ closing = .closeBracket

section Brackets

variable {c d m : Cursor} {closing : Punct} {item e : Expr} {others : List Expr}
  {t opening close : Token} {w v : List Token}

theorem primary_gives_atom (passes : c.Passes [t] d) (known : t.kind.atom? t.pos = some e) :
    (primary c).Gives e d := by
  have here : c.token = t := passes.token
  obtain ⟨m, shorter, taken, last⟩ := Cursor.takeAs_of_passes passes known
  cases last.unique (.refl m)
  refine ⟨shorter, ?_⟩
  rw [primary, here, taken]
  rfl

theorem atom?_mark (pos : Pos) (mark : Punct) : (Kind.punct mark).atom? pos = none := rfl

theorem primary_array {opening : Step Token c.remaining}
    (taken : c.take? (.punct .openBracket) = some opening) :
    primary c = do
      let elements ← items .closeBracket opening.next
      return (opening.andThen elements).map (.array opening.value.pos) := by
  have unread : c.kind.atom? c.token.pos = none := Cursor.kind_of_take? taken ▸ atom?_mark _ _
  rw [primary, Cursor.takeAs_of_refused unread]
  simp only [Cursor.takeMark?, taken]

theorem primary_group {opening : Step Token c.remaining}
    (taken : c.take? (.punct .openParen) = some opening) :
    primary c = do
      let inner ← chain Connective.loosest opening.next
      let closing ← inner.next.expectMark .closeParen
      return (opening.andThen (inner.andThen closing)).give inner.value := by
  have here := Cursor.kind_of_take? taken
  have unread : c.kind.atom? c.token.pos = none := here ▸ atom?_mark _ _
  have noBracket : c.kind ≠ .punct .openBracket := here ▸ nofun
  rw [primary, Cursor.takeAs_of_refused unread]
  simp only [Cursor.takeMark?, Cursor.take?_of_ne noBracket, taken]

theorem primary_gives_array (passes : c.Passes (opening :: w) d)
    (opens : opening.kind = .punct .openBracket)
    (inside : ∀ m, m.Passes w d → (items .closeBracket m).Gives others d) :
    (primary c).Gives (.array opening.pos others) d := by
  obtain ⟨m, afterOpening, taken, passes⟩ := Cursor.take?_of_passes passes opens
  obtain ⟨afterItems, itemsRead⟩ := inside m passes
  refine ⟨Nat.lt_trans afterItems afterOpening, ?_⟩
  rw [primary_array taken, itemsRead]
  rfl

theorem primary_gives_group (passes : c.Passes (opening :: w ++ [close]) d)
    (opens : opening.kind = .punct .openParen) (closes : close.kind = .punct .closeParen)
    (inside : ∀ e' d, e'.Passes w d → d.kind = close.kind →
      (chain Connective.loosest e').Gives e d) :
    (primary c).Gives e d := by
  obtain ⟨m, afterOpening, taken, passes⟩ := Cursor.take?_of_passes passes opens
  obtain ⟨k, passes, last⟩ := passes.split
  obtain ⟨afterInner, innerReads⟩ := inside m k passes last.kind
  obtain ⟨m', afterClosing, closingReads, last⟩ := Cursor.expectMark_of_passes last closes
  cases last.unique (.refl m')
  have shorter : d.remaining < c.remaining := by
    calc
      d.remaining < k.remaining := afterClosing
      _ < m.remaining := afterInner
      _ < c.remaining := afterOpening
  refine ⟨shorter, ?_⟩
  rw [primary_group taken]
  simp only [innerReads, bind, Except.bind, closingReads]
  rfl

theorem items_gives_none (passes : c.Passes [t] d) (closes : t.kind = .punct closing) :
    (items closing c).Gives [] d := by
  obtain ⟨m, shorter, taken, last⟩ := Cursor.take?_of_passes passes closes
  cases last.unique (.refl m)
  refine ⟨shorter, ?_⟩
  rw [items]
  simp only [Cursor.takeMark?, taken]
  rfl

theorem items_gives_last (passes : c.Passes (w ++ [t]) d) (brackets : Brackets closing)
    (heads : Heads Begins w) (closes : t.kind = .punct closing)
    (one : ∀ m, c.Passes w m → m.kind = t.kind → (chain Connective.loosest c).Gives item m) :
    (items closing c).Gives [item] d := by
  have begins := (heads.append _).kind passes
  have inside : c.kind ≠ .punct closing := by
    rcases brackets with rfl | rfl <;> exact begins.ne_mark _ nofun nofun
  obtain ⟨m, passes, last⟩ := passes.split
  obtain ⟨afterItem, itemReads⟩ := one m passes last.kind
  have noComma : m.kind ≠ .punct .comma := by
    rw [last.kind, closes]
    rcases brackets with rfl | rfl <;> nofun
  obtain ⟨e, afterClosing, taken, last⟩ := Cursor.take?_of_passes last closes
  cases last.unique (.refl e)
  refine ⟨Nat.lt_trans afterClosing afterItem, ?_⟩
  rw [items]
  simp only [Cursor.takeMark?, Cursor.take?_of_ne inside, itemReads, bind, Except.bind,
    Cursor.take?_of_ne noComma, taken]
  rfl

theorem items_gives_more (passes : c.Passes (w ++ t :: v) d) (brackets : Brackets closing)
    (heads : Heads Begins w) (comma : t.kind = .punct .comma)
    (one : ∀ m, c.Passes w m → m.kind = t.kind → (chain Connective.loosest c).Gives item m)
    (more : ∀ m, m.Passes v d → (items closing m).Gives others d) :
    (items closing c).Gives (item :: others) d := by
  have begins := (heads.append _).kind passes
  have inside : c.kind ≠ .punct closing := by
    rcases brackets with rfl | rfl <;> exact begins.ne_mark _ nofun nofun
  obtain ⟨m, passes, rest⟩ := passes.split
  obtain ⟨afterItem, itemReads⟩ := one m passes rest.kind
  obtain ⟨e, afterComma, taken, rest⟩ := Cursor.take?_of_passes rest comma
  obtain ⟨afterMore, moreReads⟩ := more e rest
  have shorter : d.remaining < c.remaining := by
    calc
      d.remaining < e.remaining := afterMore
      _ < m.remaining := afterComma
      _ < c.remaining := afterItem
  refine ⟨shorter, ?_⟩
  rw [items]
  simp only [Cursor.takeMark?, Cursor.take?_of_ne inside, itemReads, bind, Except.bind, taken,
    moreReads]
  rfl

end Brackets

mutual

theorem Primary.gives : ∀ {w : List Token} {e : Expr}, Primary w e →
    ∀ {c d : Cursor}, c.Passes w d → (primary c).Gives e d
  | _, _, .literal denotes, _, _, passes =>
      primary_gives_atom passes (Kind.atom?_eq_some_iff.mpr (.inl ⟨_, denotes, rfl⟩))
  | _, _, .name identifier, _, _, passes =>
      primary_gives_atom passes (Kind.atom?_eq_some_iff.mpr (.inr ⟨_, identifier, rfl⟩))
  | _, _, .array opens inside, _, _, passes =>
      primary_gives_array passes opens fun _ => inside.gives (.inr rfl)
  | _, _, .group opens inside closes, _, _, passes => by
      apply primary_gives_group passes opens closes
      intro e d passes here
      apply inside.gives.whole passes
      rw [here, closes]
      exact not_extends_mark nofun nofun nofun

theorem Postfixed.gives : ∀ {w : List Token} {e : Expr}, Postfixed w e →
    ∀ {c m d : Cursor} {f : Expr}, c.Passes w m → PostfixGives e m f d →
      ∃ object k, (primary c).Gives object k ∧ PostfixGives object k f d
  | _, _, .primary whole, _, _, _, _, passes, rest => ⟨_, _, whole.gives passes, rest⟩
  | _, _, .member before pointed named, _, _, _, _, passes, rest => by
      obtain ⟨k, passes, last⟩ := passes.split
      exact before.gives passes (postfixGives_member last pointed named rest)
  | _, _, .index before opens inside closes, _, _, _, _, passes, rest => by
      rw [List.append_assoc] at passes
      obtain ⟨k, passes, last⟩ := passes.split
      refine before.gives passes (postfixGives_index last opens closes ?_ rest)
      intro e d passes here
      apply inside.gives.whole passes
      rw [here, closes]
      exact not_extends_mark nofun nofun nofun
  | _, _, .call before opens inside, _, _, _, _, passes, rest => by
      obtain ⟨k, passes, last⟩ := passes.split
      refine before.gives passes (postfixGives_call last opens ?_ rest)
      intro e passes
      exact inside.gives (.inl rfl) passes

theorem Chained.gives : ∀ {level : Nat} {w : List Token} {e : Expr}, Chained level w e →
    ChainRead level w e
  | _, _, _, .postfixed whole => by
      intro c d passes apart
      obtain ⟨object, k, ⟨afterObject, objectReads⟩, rest⟩ :=
        whole.gives passes (postfixGives_stop apart)
      obtain ⟨shorter, restReads⟩ := rest _ afterObject
      have begins := whole.begins.kind passes
      refine ⟨shorter, ?_⟩
      rw [chain, unary]
      simp only [Cursor.takeAs_of_refused begins.not_leads, objectReads]
      exact restReads
  | _, _, _, .unary leads after => by
      intro c d passes apart
      obtain ⟨m, afterOp, taken, passes⟩ :=
        Cursor.takeAs_of_passes passes (UnaryOp.ofKind?_eq_some_iff.mpr leads)
      obtain ⟨afterOperand, operandReads⟩ := after.gives m d passes apart
      rw [chain] at operandReads
      refine ⟨Nat.lt_trans afterOperand afterOp, ?_⟩
      rw [chain, unary]
      simp only [taken, operandReads]
      rfl
  | _, _, _, .tighter whole => by
      intro c m f d passes apart rest
      obtain ⟨afterLeft, leftReads⟩ := whole.gives.whole passes apart
      obtain ⟨shorter, restReads⟩ := rest _ afterLeft
      refine ⟨shorter, ?_⟩
      rw [chain]
      simp only [leftReads]
      exact restReads
  | _, _, _, .connective before operator binds after => by
      intro c m f d passes apart rest
      obtain ⟨k, passes, last⟩ := passes.split
      refine before.gives c k f d passes ?_ (chainGives_connective last operator binds ?_ rest)
      · rw [last.kind, operator]
        exact binds.not_extends
      · intro e passes
        exact after.gives.whole passes apart

theorem Items.gives : ∀ {closing : Punct} {w : List Token} {es : List Expr}, Items closing w es →
    ∀ {c d : Cursor}, Brackets closing → c.Passes w d → (items closing c).Gives es d
  | _, _, _, .none closes, _, _, _, passes => items_gives_none passes closes
  | _, _, _, .last one closes, _, _, brackets, passes => by
      apply items_gives_last passes brackets one.begins closes
      intro m passes here
      apply one.gives.whole passes
      rw [here, closes]
      rcases brackets with rfl | rfl <;> exact not_extends_mark nofun nofun nofun
  | _, _, _, .more one comma others, _, _, brackets, passes => by
      refine items_gives_more passes brackets one.begins comma ?_ fun m => others.gives brackets
      intro m passes here
      apply one.gives.whole passes
      rw [here, comma]
      exact not_extends_mark nofun nofun nofun

end

theorem Expression.gives {w : List Token} {e : Expr} (derived : Expression w e) {c d : Cursor}
    (passes : c.Passes w d) (apart : ¬ Extends Connective.loosest d.kind) :
    (expression c).Gives e d :=
  Chained.gives derived |>.whole passes apart

theorem Condition.gives {w : List Token} {test : Expr} (derived : Condition w test) {c d : Cursor}
    (passes : c.Passes w d) : (condition c).Gives test d := by
  cases derived with
  | mk opens inside closes =>
      obtain ⟨m, afterOpening, openingReads, passes⟩ := Cursor.expectMark_of_passes passes opens
      obtain ⟨k, passes, last⟩ := passes.split
      have apart : ¬ Extends Connective.loosest k.kind := by
        rw [last.kind, closes]
        exact not_extends_mark nofun nofun nofun
      obtain ⟨afterTest, testReads⟩ := Expression.gives inside passes apart
      obtain ⟨m', afterClosing, closingReads, last⟩ := Cursor.expectMark_of_passes last closes
      cases last.unique (.refl m')
      have shorter : d.remaining < c.remaining := by
        calc
          d.remaining < k.remaining := afterClosing
          _ < m.remaining := afterTest
          _ < c.remaining := afterOpening
      refine ⟨shorter, ?_⟩
      simp only [condition, openingReads, testReads, closingReads, bind, Except.bind]
      rfl

section Simple

variable {enclosing : Enclosing} {c d m : Cursor} {s f : Stmt} {w : List Token} {mark : Token}

/-- Wherever the end of a statement `s` is looked for from `m` on, `f` comes of it, up to `d`. -/
def EndGives (s : Stmt) (m : Cursor) (f : Stmt) (d : Cursor) : Prop :=
  ∀ bound (shorter : m.remaining < bound), (ended ⟨s, m, shorter⟩).Gives f d

theorem endGives_mark (passes : m.Passes [mark] d) (marked : mark.kind = .punct .semicolon) :
    EndGives s m s d := by
  intro bound shorter
  obtain ⟨e, afterMark, taken, last⟩ := Cursor.take?_of_passes passes marked
  cases last.unique (.refl e)
  refine ⟨Nat.lt_trans afterMark shorter, ?_⟩
  simp only [ended, Cursor.takeMark?, taken]
  rfl

theorem endGives_end (passes : c.Passes w d) (ends : Ends s w d.token)
    (unmarked : d.kind ≠ .punct .semicolon) : EndGives s d s d := by
  intro bound shorter
  have here : d.kind = .punct .closeBrace ∨ d.kind = .endOfInput ∨ d.line < d.token.pos.line := by
    cases ends with
    | brace closes => exact .inl closes
    | stop stops => exact .inr (.inl stops)
    | line lastOf later _ _ =>
        rw [passes.line, Cursor.lineAfter_of_getLast? lastOf]
        exact .inr (.inr later)
  refine ⟨shorter, ?_⟩
  simp only [ended, Cursor.takeMark?, Cursor.take?_of_ne unmarked, if_pos here]

theorem simple_declaration {word : Step (Token × DeclKind) c.remaining}
    (taken : c.takeAs declKind? = some word) :
    simple enclosing c = (do
      let statement ← declaration word.value.2 word.value.1.pos word.next
      ended (word.andThen statement)) := by
  simp only [simple, taken]

theorem simple_break {word : Step Token c.remaining}
    (taken : c.take? (.keyword .break) = some word) :
    simple enclosing c =
      if enclosing.loop || enclosing.switch then ended (word.map (.break ·.pos))
      else .error ⟨.breakable, word.value⟩ := by
  have undeclared : declKind? c.kind = none := Cursor.kind_of_take? taken ▸ rfl
  simp only [simple, Cursor.takeAs_of_refused undeclared, taken]

theorem simple_continue {word : Step Token c.remaining}
    (taken : c.take? (.keyword .continue) = some word) :
    simple enclosing c =
      if enclosing.loop then ended (word.map (.continue ·.pos))
      else .error ⟨.repeatable, word.value⟩ := by
  have here := Cursor.kind_of_take? taken
  have undeclared : declKind? c.kind = none := here ▸ rfl
  have noBreak : c.kind ≠ .keyword .break := here ▸ nofun
  simp only [simple, Cursor.takeAs_of_refused undeclared, Cursor.take?_of_ne noBreak, taken]

theorem simple_expression (undeclared : declKind? c.kind = none)
    (noBreak : c.kind ≠ .keyword .break) (noContinue : c.kind ≠ .keyword .continue) :
    simple enclosing c = expressionOrAssignment c >>= ended := by
  simp only [simple, Cursor.takeAs_of_refused undeclared, Cursor.take?_of_ne noBreak,
    Cursor.take?_of_ne noContinue]

theorem simple_leads_declaration {word : Token} {kind : DeclKind} (passes : c.Passes (word :: w) m)
    (declares : Declares word.kind kind)
    (after : ∀ e, e.Passes w m → (declaration kind word.pos e).Gives s m) :
    ∃ shorter, simple enclosing c = ended ⟨s, m, shorter⟩ := by
  obtain ⟨e, afterWord, taken, passes⟩ :=
    Cursor.takeAs_of_passes passes (declKind?_eq_some_iff.mpr declares)
  obtain ⟨afterStatement, statementReads⟩ := after e passes
  refine ⟨Nat.lt_trans afterStatement afterWord, ?_⟩
  rw [simple_declaration taken]
  simp only [statementReads]
  rfl

theorem declaration_gives_declare {name : Token} {kind : DeclKind} {text : String} (pos : Pos)
    (passes : c.Passes [name] m) (named : name.kind = .identifier text) (changeable : kind ≠ .const)
    (apart : m.kind ≠ .operator .assign) :
    (declaration kind pos c).Gives (.declare pos kind text none) m := by
  obtain ⟨e, afterName, nameReads, last⟩ := Cursor.expectAs_of_passes passes
    (Kind.name?_eq_some_iff.mpr named) .identifier
  cases last.unique (.refl e)
  refine ⟨afterName, ?_⟩
  simp only [declaration, nameReads, bind, Except.bind, Cursor.take?_of_ne apart,
    if_neg changeable]
  rfl

theorem declaration_gives_define {name equals : Token} {kind : DeclKind} {text : String}
    {value : Expr} (pos : Pos) (passes : c.Passes (name :: equals :: w) m)
    (named : name.kind = .identifier text) (assigns : equals.kind = .operator .assign)
    (after : Expression w value) (apart : ¬ Extends Connective.loosest m.kind) :
    (declaration kind pos c).Gives (.declare pos kind text (some value)) m := by
  obtain ⟨e, afterName, nameReads, passes⟩ := Cursor.expectAs_of_passes passes
    (Kind.name?_eq_some_iff.mpr named) .identifier
  obtain ⟨k, afterEquals, taken, passes⟩ := Cursor.take?_of_passes passes assigns
  obtain ⟨afterValue, valueReads⟩ := Expression.gives after passes apart
  have shorter : m.remaining < c.remaining := by
    calc
      m.remaining < k.remaining := afterValue
      _ < e.remaining := afterEquals
      _ < c.remaining := afterName
  refine ⟨shorter, ?_⟩
  simp only [declaration, nameReads, bind, Except.bind, taken, valueReads]
  rfl

theorem expressionOrAssignment_gives_assign {first equals : Token} {v : List Token}
    {left value : Expr} {target : Target} (passes : c.Passes (first :: w ++ equals :: v) m)
    (before : Expression (first :: w) left) (assignable : Assignable left target)
    (assigns : equals.kind = .operator .assign) (after : Expression v value)
    (apart : ¬ Extends Connective.loosest m.kind) :
    (expressionOrAssignment c).Gives (.assign first.pos target value) m := by
  have here : c.token = first := passes.token
  obtain ⟨e, passes, last⟩ := passes.split
  have tight : ¬ Extends Connective.loosest e.kind := by
    rw [last.kind, assigns]
    intro extend
    cases extend with
    | connective binds _ => cases binds
  obtain ⟨afterLeft, leftReads⟩ := Expression.gives before passes tight
  obtain ⟨k, afterEquals, taken, passes⟩ := Cursor.take?_of_passes last assigns
  obtain ⟨afterValue, valueReads⟩ := Expression.gives after passes apart
  have known := Target.ofExpr?_eq_some_iff.mpr assignable
  have shorter : m.remaining < c.remaining := by
    calc
      m.remaining < k.remaining := afterValue
      _ < e.remaining := afterEquals
      _ < c.remaining := afterLeft
  refine ⟨shorter, ?_⟩
  simp only [expressionOrAssignment, leftReads, bind, Except.bind, taken, known, valueReads, here]
  rfl

theorem expressionOrAssignment_gives_expr {first : Token} {value : Expr}
    (passes : c.Passes (first :: w) m) (whole : Expression (first :: w) value)
    (apart : ¬ Extends Connective.loosest m.kind) (unassigned : m.kind ≠ .operator .assign) :
    (expressionOrAssignment c).Gives (.expr first.pos value) m := by
  have here : c.token = first := passes.token
  obtain ⟨shorter, valueReads⟩ := Expression.gives whole passes apart
  refine ⟨shorter, ?_⟩
  simp only [expressionOrAssignment, valueReads, bind, Except.bind, Cursor.take?_of_ne unassigned,
    here]
  rfl

theorem simple_leads_expression (begins : Begins c.kind)
    (reads : (expressionOrAssignment c).Gives s m) :
    ∃ shorter, simple enclosing c = ended ⟨s, m, shorter⟩ := by
  obtain ⟨shorter, statementReads⟩ := reads
  refine ⟨shorter, ?_⟩
  rw [simple_expression begins.undeclared (begins.ne_keyword _ (by decide))
    (begins.ne_keyword _ (by decide)), statementReads]
  rfl

theorem Simple.leads (derived : Simple enclosing w s) (passes : c.Passes w m)
    (apart : ¬ Continues s m.kind) : ∃ shorter, simple enclosing c = ended ⟨s, m, shorter⟩ := by
  cases derived with
  | declare declares named changeable =>
      refine simple_leads_declaration passes declares ?_
      intro e passes
      exact declaration_gives_declare _ passes named changeable apart
  | define declares named assigns after =>
      refine simple_leads_declaration passes declares ?_
      intro e passes
      exact declaration_gives_define _ passes named assigns after apart
  | assign before assignable assigns after =>
      have begins := (Chained.begins before |>.append _).kind passes
      exact simple_leads_expression begins
        (expressionOrAssignment_gives_assign passes before assignable assigns after apart)
  | expr whole =>
      have begins := (Chained.begins whole).kind passes
      exact simple_leads_expression begins (expressionOrAssignment_gives_expr passes whole
        (fun extend => apart (.inl extend)) fun assigns => apart (.inr assigns))
  | «break» is placed =>
      obtain ⟨e, afterWord, taken, last⟩ := Cursor.take?_of_passes passes is
      cases last.unique (.refl e)
      refine ⟨afterWord, ?_⟩
      rw [simple_break taken, if_pos (by simpa using placed)]
      rfl
  | «continue» is placed =>
      obtain ⟨e, afterWord, taken, last⟩ := Cursor.take?_of_passes passes is
      cases last.unique (.refl e)
      refine ⟨afterWord, ?_⟩
      rw [simple_continue taken, if_pos placed]
      rfl

theorem Simple.gives (derived : Simple enclosing w s) (passes : c.Passes w m)
    (apart : ¬ Continues s m.kind) (rest : EndGives s m f d) : (simple enclosing c).Gives f d := by
  obtain ⟨shorter, leads⟩ := derived.leads passes apart
  rw [leads]
  exact rest _ shorter

end Simple

def Opens (kind : Kind) : Prop :=
  kind = .punct .semicolon ∨ kind = .punct .openBrace ∨ kind = .keyword .if ∨
    kind = .keyword .while ∨ kind = .keyword .switch

def Plain (kind : Kind) : Prop := ¬ Opens kind ∧ endsClause kind = false

theorem Begins.plain {kind : Kind} (begins : Begins kind) : Plain kind := by
  constructor
  · rintro (rfl | rfl | rfl | rfl | rfl)
    · exact begins.ne_mark .semicolon nofun nofun rfl
    · exact begins.ne_mark .openBrace nofun nofun rfl
    · exact begins.ne_keyword .if (by decide) rfl
    · exact begins.ne_keyword .while (by decide) rfl
    · exact begins.ne_keyword .switch (by decide) rfl
  · cases begins with
    | operand begins =>
        cases begins with
        | literal denotes => cases denotes <;> rfl
        | name | array | group => rfl
    | unary leads => cases leads <;> rfl

theorem Declares.plain {kind : Kind} {declared : DeclKind} (declares : Declares kind declared) :
    Plain kind := by
  cases declares <;> exact ⟨by simp [Opens], rfl⟩

theorem Simple.begins {enclosing : Enclosing} {w : List Token} {s : Stmt}
    (derived : Simple enclosing w s) : Heads Plain w := by
  cases derived with
  | declare declares _ _ => exact ⟨_, _, rfl, declares.plain⟩
  | define declares _ _ _ => exact ⟨_, _, rfl, declares.plain⟩
  | assign before _ _ _ => exact (Chained.begins before |>.append _).imp fun _ => Begins.plain
  | expr whole => exact (Chained.begins whole).imp fun _ => Begins.plain
  | «break» is _ => exact ⟨_, _, rfl, is ▸ ⟨by simp [Opens], rfl⟩⟩
  | «continue» is _ => exact ⟨_, _, rfl, is ▸ ⟨by simp [Opens], rfl⟩⟩

theorem Statement.begins {enclosing : Enclosing} {w : List Token} {next : Token} {s : Stmt}
    (derived : Statement enclosing w next s) : Heads (endsClause · = false) w := by
  cases derived with
  | terminated whole _ => exact (whole.begins.append _).imp fun _ plain => plain.2
  | unterminated whole _ => exact whole.begins.imp fun _ plain => plain.2
  | empty marked => exact ⟨_, _, rfl, marked ▸ rfl⟩
  | block opens _ _ => exact ⟨_, _, rfl, opens ▸ rfl⟩
  | «if» is _ _ _ => exact ⟨_, _, rfl, is ▸ rfl⟩
  | ifElse is _ _ _ _ => exact ⟨_, _, rfl, is ▸ rfl⟩
  | «while» is _ _ => exact ⟨_, _, rfl, is ▸ rfl⟩
  | switch is _ _ _ _ _ => exact ⟨_, _, rfl, is ▸ rfl⟩

theorem Clauses.endsClause {enclosing : Enclosing} {w : List Token} {close : Token}
    {cases : List Clause} (derived : Clauses enclosing w close cases)
    (closes : close.kind = .punct .closeBrace) :
    Grammar.endsClause (w.headD close).kind = true := by
  cases derived with
  | nil => exact closes ▸ rfl
  | case is _ _ _ _ => exact is ▸ rfl
  | default is _ _ _ => exact is ▸ rfl

theorem statement_eq_simple {c : Cursor} (enclosing : Enclosing) (plain : ¬ Opens c.kind) :
    statement enclosing c = simple enclosing c := by
  simp only [Opens, not_or] at plain
  obtain ⟨noMark, noBrace, noIf, noWhile, noSwitch⟩ := plain
  rw [statement]
  simp only [Cursor.takeMark?, Cursor.take?_of_ne noMark, Cursor.take?_of_ne noBrace,
    Cursor.take?_of_ne noIf, Cursor.take?_of_ne noWhile, Cursor.take?_of_ne noSwitch]

theorem not_continues {kind : Kind} (s : Stmt) (apart : ¬ Extends Connective.loosest kind)
    (unassigned : kind ≠ .operator .assign) : ¬ Continues s kind := by
  cases s with
  | declare pos declared name value => cases value <;> simp [Continues, apart, unassigned]
  | assign | expr => simp [Continues, apart, unassigned]
  | block | «if» | «while» | switch | «break» | «continue» => exact id

theorem not_continues_mark {mark : Punct} (s : Stmt) (dot : mark ≠ .dot)
    (bracket : mark ≠ .openBracket) (paren : mark ≠ .openParen) : ¬ Continues s (.punct mark) :=
  not_continues s (not_extends_mark dot bracket paren) nofun

theorem Ends.apart {s : Stmt} {w : List Token} {next : Token} (ends : Ends s w next) :
    ¬ Continues s next.kind ∧ next.kind ≠ .punct .semicolon := by
  cases ends with
  | brace closes =>
      rw [closes]
      exact ⟨not_continues_mark s nofun nofun nofun, nofun⟩
  | stop stops =>
      rw [stops]
      exact ⟨not_continues s nofun nofun, nofun⟩
  | line _ _ apart unmarked => exact ⟨apart, unmarked⟩

section Statements

variable {enclosing : Enclosing} {c d : Cursor} {test : Expr} {yes no : Stmt} {body : List Stmt}
  {w v u : List Token} {word other opening closing : Token}

theorem statement_empty {mark : Step Token c.remaining}
    (taken : c.take? (.punct .semicolon) = some mark) :
    statement enclosing c = .ok (mark.map (.block ·.pos [])) := by
  rw [statement]
  simp only [Cursor.takeMark?, taken]

theorem statement_block {opening : Step Token c.remaining}
    (taken : c.take? (.punct .openBrace) = some opening) :
    statement enclosing c = do
      let body ← block enclosing opening.next
      return (opening.andThen body).map (.block opening.value.pos) := by
  have here := Cursor.kind_of_take? taken
  have noMark : c.kind ≠ .punct .semicolon := here ▸ nofun
  rw [statement]
  simp only [Cursor.takeMark?, Cursor.take?_of_ne noMark, taken]

theorem statement_if {word : Step Token c.remaining}
    (taken : c.take? (.keyword .if) = some word) :
    statement enclosing c = do
      let test ← condition word.next
      let yes ← statement enclosing test.next
      match yes.next.take? (.keyword .else) with
      | some other => do
        let no ← statement enclosing other.next
        return (word.andThen (test.andThen (yes.andThen (other.andThen no)))).map fun s =>
          .if word.value.pos test.value yes.value (some s)
      | none =>
        return (word.andThen (test.andThen yes)).map fun s =>
          .if word.value.pos test.value s none := by
  have here := Cursor.kind_of_take? taken
  have noMark : c.kind ≠ .punct .semicolon := here ▸ nofun
  have noBrace : c.kind ≠ .punct .openBrace := here ▸ nofun
  have reads := statement.eq_1 enclosing c
  simp only [Cursor.takeMark?, Cursor.take?_of_ne noMark, Cursor.take?_of_ne noBrace, taken] at reads
  exact reads

theorem statement_while {word : Step Token c.remaining}
    (taken : c.take? (.keyword .while) = some word) :
    statement enclosing c = do
      let test ← condition word.next
      let body ← statement { enclosing with loop := true } test.next
      return (word.andThen (test.andThen body)).map (.while word.value.pos test.value) := by
  have here := Cursor.kind_of_take? taken
  have noMark : c.kind ≠ .punct .semicolon := here ▸ nofun
  have noBrace : c.kind ≠ .punct .openBrace := here ▸ nofun
  have noIf : c.kind ≠ .keyword .if := here ▸ nofun
  rw [statement]
  simp only [Cursor.takeMark?, Cursor.take?_of_ne noMark, Cursor.take?_of_ne noBrace,
    Cursor.take?_of_ne noIf, taken]

theorem statement_switch {word : Step Token c.remaining}
    (taken : c.take? (.keyword .switch) = some word) :
    statement enclosing c = do
      let subject ← condition word.next
      let opening ← subject.next.expectMark .openBrace
      let cases ← clauses { enclosing with switch := true } false opening.next
      return (word.andThen (subject.andThen (opening.andThen cases))).map
        (.switch word.value.pos subject.value) := by
  have here := Cursor.kind_of_take? taken
  have noMark : c.kind ≠ .punct .semicolon := here ▸ nofun
  have noBrace : c.kind ≠ .punct .openBrace := here ▸ nofun
  have noIf : c.kind ≠ .keyword .if := here ▸ nofun
  have noWhile : c.kind ≠ .keyword .while := here ▸ nofun
  rw [statement]
  simp only [Cursor.takeMark?, Cursor.take?_of_ne noMark, Cursor.take?_of_ne noBrace,
    Cursor.take?_of_ne noIf, Cursor.take?_of_ne noWhile, taken]

theorem statement_gives_empty (passes : c.Passes [word] d)
    (marked : word.kind = .punct .semicolon) :
    (statement enclosing c).Gives (.block word.pos []) d := by
  obtain ⟨m, shorter, taken, last⟩ := Cursor.take?_of_passes passes marked
  cases last.unique (.refl m)
  exact ⟨shorter, statement_empty taken⟩

theorem statement_gives_block (passes : c.Passes (opening :: w) d)
    (opens : opening.kind = .punct .openBrace)
    (inside : ∀ m, m.Passes w d → (block enclosing m).Gives body d) :
    (statement enclosing c).Gives (.block opening.pos body) d := by
  obtain ⟨m, afterOpening, taken, passes⟩ := Cursor.take?_of_passes passes opens
  obtain ⟨afterBody, bodyReads⟩ := inside m passes
  refine ⟨Nat.lt_trans afterBody afterOpening, ?_⟩
  rw [statement_block taken, bodyReads]
  rfl

theorem statement_gives_if (passes : c.Passes (word :: v ++ w) d) (is : word.kind = .keyword .if)
    (condition : Condition v test) (alone : d.kind ≠ .keyword .else)
    (branch : ∀ m, m.Passes w d → (statement enclosing m).Gives yes d) :
    (statement enclosing c).Gives (.if word.pos test yes none) d := by
  obtain ⟨m, afterWord, taken, passes⟩ := Cursor.take?_of_passes passes is
  obtain ⟨k, passes, last⟩ := passes.split
  obtain ⟨afterTest, testReads⟩ := condition.gives passes
  obtain ⟨afterBranch, branchReads⟩ := branch k last
  have shorter : d.remaining < c.remaining := by
    calc
      d.remaining < k.remaining := afterBranch
      _ < m.remaining := afterTest
      _ < c.remaining := afterWord
  refine ⟨shorter, ?_⟩
  rw [statement_if taken]
  simp only [testReads, branchReads, bind, Except.bind, Cursor.take?_of_ne alone]
  rfl

theorem statement_gives_ifElse (passes : c.Passes (word :: v ++ w ++ other :: u) d)
    (is : word.kind = .keyword .if) (condition : Condition v test)
    (otherwise : other.kind = .keyword .else)
    (branch : ∀ m e, m.Passes w e → e.token = other → (statement enclosing m).Gives yes e)
    (rest : ∀ m, m.Passes u d → (statement enclosing m).Gives no d) :
    (statement enclosing c).Gives (.if word.pos test yes (some no)) d := by
  obtain ⟨e, passes, after⟩ := passes.split
  obtain ⟨m, afterWord, taken, passes⟩ := Cursor.take?_of_passes passes is
  obtain ⟨k, passes, last⟩ := passes.split
  obtain ⟨afterTest, testReads⟩ := condition.gives passes
  obtain ⟨afterBranch, branchReads⟩ := branch k e last after.token
  obtain ⟨m', afterOther, takenOther, after⟩ := Cursor.take?_of_passes after otherwise
  obtain ⟨afterRest, restReads⟩ := rest m' after
  have shorter : d.remaining < c.remaining := by
    calc
      d.remaining < m'.remaining := afterRest
      _ < e.remaining := afterOther
      _ < k.remaining := afterBranch
      _ < m.remaining := afterTest
      _ < c.remaining := afterWord
  refine ⟨shorter, ?_⟩
  rw [statement_if taken]
  simp only [testReads, branchReads, bind, Except.bind, takenOther, restReads]
  rfl

theorem statement_gives_while (passes : c.Passes (word :: v ++ w) d)
    (is : word.kind = .keyword .while) (condition : Condition v test)
    (turn : ∀ m, m.Passes w d → (statement { enclosing with loop := true } m).Gives yes d) :
    (statement enclosing c).Gives (.while word.pos test yes) d := by
  obtain ⟨m, afterWord, taken, passes⟩ := Cursor.take?_of_passes passes is
  obtain ⟨k, passes, last⟩ := passes.split
  obtain ⟨afterTest, testReads⟩ := condition.gives passes
  obtain ⟨afterTurn, turnReads⟩ := turn k last
  have shorter : d.remaining < c.remaining := by
    calc
      d.remaining < k.remaining := afterTurn
      _ < m.remaining := afterTest
      _ < c.remaining := afterWord
  refine ⟨shorter, ?_⟩
  rw [statement_while taken]
  simp only [testReads, turnReads, bind, Except.bind]
  rfl

theorem statement_gives_switch {clauses : List Clause}
    (passes : c.Passes (word :: v ++ opening :: w) d) (is : word.kind = .keyword .switch)
    (condition : Condition v test) (opens : opening.kind = .punct .openBrace)
    (inside : ∀ m, m.Passes w d →
      (Grammar.clauses { enclosing with switch := true } false m).Gives clauses d) :
    (statement enclosing c).Gives (.switch word.pos test clauses) d := by
  obtain ⟨m, afterWord, taken, passes⟩ := Cursor.take?_of_passes passes is
  obtain ⟨k, passes, last⟩ := passes.split
  obtain ⟨afterTest, testReads⟩ := condition.gives passes
  obtain ⟨e, afterOpening, openingReads, last⟩ := Cursor.expectMark_of_passes last opens
  obtain ⟨afterClauses, clausesRead⟩ := inside e last
  have shorter : d.remaining < c.remaining := by
    calc
      d.remaining < e.remaining := afterClauses
      _ < k.remaining := afterOpening
      _ < m.remaining := afterTest
      _ < c.remaining := afterWord
  refine ⟨shorter, ?_⟩
  rw [statement_switch taken]
  simp only [testReads, openingReads, clausesRead, bind, Except.bind]
  rfl

theorem block_gives_nil (passes : c.Passes [closing] d)
    (closes : closing.kind = .punct .closeBrace) :
    (block enclosing c).Gives [] d := by
  obtain ⟨m, shorter, taken, last⟩ := Cursor.take?_of_passes passes closes
  cases last.unique (.refl m)
  refine ⟨shorter, ?_⟩
  rw [block]
  simp only [Cursor.takeMark?, taken]
  rfl

theorem block_gives_cons {m : Cursor} (begins : endsClause c.kind = false)
    (first : (statement enclosing c).Gives yes m) (others : (block enclosing m).Gives body d) :
    (block enclosing c).Gives (yes :: body) d := by
  have noBrace : c.kind ≠ .punct .closeBrace := by
    intro same
    rw [same] at begins
    cases begins
  have inside : c.kind ≠ .endOfInput := by
    intro same
    rw [same] at begins
    cases begins
  obtain ⟨afterFirst, firstReads⟩ := first
  obtain ⟨afterOthers, othersRead⟩ := others
  refine ⟨Nat.lt_trans afterOthers afterFirst, ?_⟩
  rw [block]
  simp only [Cursor.takeMark?, Cursor.take?_of_ne noBrace, if_neg inside, firstReads, othersRead,
    bind, Except.bind]
  rfl

/-- Wherever the statements of a clause are read from `c` on, they are `body` up to `d`. -/
def BodyGives (enclosing : Enclosing) (c : Cursor) (body : List Stmt) (d : Cursor) : Prop :=
  ∀ bound (shorter : c.remaining < bound), (clauseBody enclosing c shorter).Gives body d

theorem bodyGives_nil (ends : endsClause c.kind = true) : BodyGives enclosing c [] c := by
  intro bound shorter
  refine ⟨shorter, ?_⟩
  rw [clauseBody, if_pos ends]

theorem bodyGives_cons {m : Cursor} (begins : endsClause c.kind = false)
    (first : (statement enclosing c).Gives yes m) (others : BodyGives enclosing m body d) :
    BodyGives enclosing c (yes :: body) d := by
  intro bound shorter
  obtain ⟨afterFirst, firstReads⟩ := first
  obtain ⟨afterOthers, othersRead⟩ := others bound (Nat.lt_trans afterFirst shorter)
  refine ⟨afterOthers, ?_⟩
  rw [clauseBody, if_neg (by simp [begins])]
  simp only [firstReads, othersRead, bind, Except.bind]
  rfl

section Clauses

variable {seenDefault : Bool} {more : List Clause} {m : Cursor} {colon : Token}

theorem clauses_case {word : Step Token c.remaining}
    (taken : c.take? (.keyword .case) = some word) :
    clauses enclosing seenDefault c = do
      let test ← expression word.next
      let colon ← test.next.expectMark .colon
      let body ← clauseBody enclosing colon.next colon.shorter
      let more ← clauses enclosing seenDefault body.next
      return (word.andThen (test.andThen (body.andThen more))).map
        (.mk word.value.pos (some test.value) body.value :: ·) := by
  have noBrace : c.kind ≠ .punct .closeBrace := Cursor.kind_of_take? taken ▸ nofun
  rw [clauses]
  simp only [Cursor.takeMark?, Cursor.take?_of_ne noBrace, taken]

theorem clauses_default {word : Step Token c.remaining}
    (taken : c.take? (.keyword .default) = some word) :
    clauses enclosing seenDefault c =
      if seenDefault then .error ⟨.singleDefault, word.value⟩
      else do
        let colon ← word.next.expectMark .colon
        let body ← clauseBody enclosing colon.next colon.shorter
        let more ← clauses enclosing true body.next
        return (word.andThen (body.andThen more)).map
          (.mk word.value.pos none body.value :: ·) := by
  have here := Cursor.kind_of_take? taken
  have noBrace : c.kind ≠ .punct .closeBrace := here ▸ nofun
  have noCase : c.kind ≠ .keyword .case := here ▸ nofun
  rw [clauses]
  simp only [Cursor.takeMark?, Cursor.take?_of_ne noBrace, Cursor.take?_of_ne noCase, taken]

theorem clauses_gives_nil (passes : c.Passes [closing] d)
    (closes : closing.kind = .punct .closeBrace) :
    (clauses enclosing seenDefault c).Gives [] d := by
  obtain ⟨m, shorter, taken, last⟩ := Cursor.take?_of_passes passes closes
  cases last.unique (.refl m)
  refine ⟨shorter, ?_⟩
  rw [clauses]
  simp only [Cursor.takeMark?, taken]
  rfl

theorem clauses_gives_case (passes : c.Passes (word :: w ++ colon :: v) m)
    (is : word.kind = .keyword .case) (tested : Expression w test)
    (divides : colon.kind = .punct .colon)
    (inside : ∀ e, e.Passes v m → BodyGives enclosing e body m)
    (others : (clauses enclosing seenDefault m).Gives more d) :
    (clauses enclosing seenDefault c).Gives (.mk word.pos (some test) body :: more) d := by
  obtain ⟨e, afterWord, taken, passes⟩ := Cursor.take?_of_passes passes is
  obtain ⟨k, passes, last⟩ := passes.split
  have apart : ¬ Extends Connective.loosest k.kind := by
    rw [last.kind, divides]
    exact not_extends_mark nofun nofun nofun
  obtain ⟨afterTest, testReads⟩ := Expression.gives tested passes apart
  obtain ⟨e', afterColon, colonReads, last⟩ := Cursor.expectMark_of_passes last divides
  obtain ⟨afterBody, bodyReads⟩ := inside e' last _ afterColon
  obtain ⟨afterMore, moreReads⟩ := others
  have shorter : d.remaining < c.remaining := by
    calc
      d.remaining < m.remaining := afterMore
      _ < k.remaining := afterBody
      _ < e.remaining := afterTest
      _ < c.remaining := afterWord
  refine ⟨shorter, ?_⟩
  rw [clauses_case taken]
  simp only [testReads, colonReads, bodyReads, moreReads, bind, Except.bind]
  rfl

theorem clauses_gives_default (passes : c.Passes (word :: colon :: v) m)
    (is : word.kind = .keyword .default) (divides : colon.kind = .punct .colon)
    (inside : ∀ e, e.Passes v m → BodyGives enclosing e body m)
    (others : (clauses enclosing true m).Gives more d) :
    (clauses enclosing false c).Gives (.mk word.pos none body :: more) d := by
  obtain ⟨e, afterWord, taken, passes⟩ := Cursor.take?_of_passes passes is
  obtain ⟨e', afterColon, colonReads, last⟩ := Cursor.expectMark_of_passes passes divides
  obtain ⟨afterBody, bodyReads⟩ := inside e' last _ afterColon
  obtain ⟨afterMore, moreReads⟩ := others
  have shorter : d.remaining < c.remaining := by
    calc
      d.remaining < m.remaining := afterMore
      _ < e.remaining := afterBody
      _ < c.remaining := afterWord
  refine ⟨shorter, ?_⟩
  rw [clauses_default taken, if_neg Bool.false_ne_true]
  simp only [colonReads, bodyReads, moreReads, bind, Except.bind]
  rfl

end Clauses

end Statements

mutual

theorem Statement.gives : ∀ {enclosing : Enclosing} {w : List Token} {next : Token} {s : Stmt},
    Statement enclosing w next s → ∀ {c d : Cursor}, c.Passes w d → d.token = next →
      (statement enclosing c).Gives s d
  | enclosing, _, _, s, .terminated whole marked, _, _, passes, _ => by
      rw [statement_eq_simple _ ((whole.begins.append _).kind passes).1]
      obtain ⟨m, passes, last⟩ := passes.split
      refine whole.gives passes ?_ (endGives_mark last marked)
      rw [last.kind, marked]
      exact not_continues_mark s nofun nofun nofun
  | enclosing, _, _, s, .unterminated whole ends, _, _, passes, here => by
      rw [statement_eq_simple _ (whole.begins.kind passes).1]
      subst here
      exact whole.gives passes ends.apart.1 (endGives_end passes ends ends.apart.2)
  | _, _, _, _, .empty marked, _, _, passes, _ => statement_gives_empty passes marked
  | _, _, _, _, .block opens inside closes, _, _, passes, _ =>
      statement_gives_block passes opens fun _ passes => inside.gives_block passes closes
  | _, _, _, _, .if is condition branch alone, _, _, passes, here => by
      subst here
      exact statement_gives_if passes is condition alone fun _ passes => branch.gives passes rfl
  | _, _, _, _, .ifElse is condition branch otherwise rest, _, _, passes, here =>
      statement_gives_ifElse passes is condition otherwise
        (fun _ _ passes here => branch.gives passes here) fun _ passes => rest.gives passes here
  | _, _, _, _, .while is condition turn, _, _, passes, here =>
      statement_gives_while passes is condition fun _ passes => turn.gives passes here
  | _, _, _, _, .switch is condition opens inside closes single, _, _, passes, _ => by
      rw [List.append_assoc] at passes
      exact statement_gives_switch passes is condition opens fun _ passes =>
        inside.gives passes closes single

theorem Statements.gives_block : ∀ {enclosing : Enclosing} {w : List Token} {close : Token}
    {body : List Stmt}, Statements enclosing w close body → ∀ {c d : Cursor},
      c.Passes (w ++ [close]) d → close.kind = .punct .closeBrace →
        (block enclosing c).Gives body d
  | _, _, _, _, .nil, _, _, passes, closes => block_gives_nil passes closes
  | _, _, _, _, .cons first others, _, _, passes, closes => by
      rw [List.append_assoc] at passes
      obtain ⟨m, passes, last⟩ := passes.split
      have here := last.token
      rw [Cursor.headD_concat] at here
      exact block_gives_cons (first.begins.kind passes) (first.gives passes here)
        (others.gives_block last closes)

theorem Statements.gives_body : ∀ {enclosing : Enclosing} {w : List Token} {next : Token}
    {body : List Stmt}, Statements enclosing w next body → ∀ {c d : Cursor}, c.Passes w d →
      d.token = next → endsClause next.kind = true → BodyGives enclosing c body d
  | _, _, _, _, .nil, c, _, passes, here, ends => by
      cases passes.unique (.refl c)
      subst here
      exact bodyGives_nil ends
  | _, _, _, _, .cons first others, _, _, passes, here, ends => by
      obtain ⟨m, passes, last⟩ := passes.split
      have between := last.token
      rw [here] at between
      exact bodyGives_cons (first.begins.kind passes) (first.gives passes between)
        (others.gives_body last here ends)

theorem Clauses.gives : ∀ {enclosing : Enclosing} {w : List Token} {close : Token}
    {cases : List Clause}, Clauses enclosing w close cases → ∀ {c d : Cursor} {seenDefault : Bool},
      c.Passes (w ++ [close]) d → close.kind = .punct .closeBrace →
        (defaults cases ≤ if seenDefault then 0 else 1) →
          (clauses enclosing seenDefault c).Gives cases d
  | _, _, _, _, .nil, _, _, _, passes, closes, _ => clauses_gives_nil passes closes
  | _, _, _, _, .case is tested divides inside others, _, _, _, passes, closes, single => by
      rw [List.append_assoc] at passes
      obtain ⟨m, passes, last⟩ := passes.split
      have here := last.token
      rw [Cursor.headD_concat] at here
      rw [defaults_case] at single
      exact clauses_gives_case passes is tested divides
        (fun _ passes => inside.gives_body passes here (others.endsClause closes))
        (others.gives last closes single)
  | _, _, _, _, .default is divides inside others, _, _, true, _, _, single => by
      rw [defaults_default] at single
      cases single
  | _, _, _, _, .default is divides inside others, _, _, false, passes, closes, single => by
      rw [List.append_assoc] at passes
      obtain ⟨m, passes, last⟩ := passes.split
      have here := last.token
      rw [Cursor.headD_concat] at here
      rw [defaults_default] at single
      exact clauses_gives_default passes is divides
        (fun _ passes => inside.gives_body passes here (others.endsClause closes))
        (others.gives last closes (Nat.le_of_succ_le_succ single))

end

end Grammar

end Script
