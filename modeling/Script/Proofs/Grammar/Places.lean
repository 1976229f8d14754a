import Script.Proofs.Grammar.Derivation
import Script.Proofs.Tree.Parts

/-!
The places in a tree are those of the tokens that derive it.
-/

namespace Script.Grammar

/-- A token of `w` stands there. -/
def Marked (w : List Token) (pos : Pos) : Prop := ∃ t ∈ w, t.pos = pos

def Placed (w : List Token) (e : Expr) : Prop :=
  ∀ part : Expr, part.Part e → ∀ pos ∈ part.places, Marked w pos

section Placed

variable {w v : List Token} {e : Expr}

theorem Marked.mono {pos : Pos} (marked : Marked w pos) (within : w ⊆ v) : Marked v pos := by
  obtain ⟨t, member, place⟩ := marked
  exact ⟨t, within member, place⟩

theorem Marked.of_mem {t : Token} (member : t ∈ w) : Marked w t.pos := ⟨t, member, rfl⟩

theorem Placed.mono (placed : Placed w e) (within : w ⊆ v) : Placed v e :=
  fun part inside pos place => (placed part inside pos place).mono within

theorem Placed.mk (own : ∀ pos ∈ e.places, Marked w pos)
    (operands : ∀ inner ∈ e.operands, Placed w inner) : Placed w e := by
  intro part inside pos place
  cases inside with
  | self => exact own pos place
  | operand member within => exact operands _ member part within pos place

theorem Placed.join {left right : Expr} {pos : Pos} (here : Marked w pos) (before : Placed w left)
    (after : Placed w right) (connective : Connective) :
    Placed w (connective.join pos left right) := by
  have own : ∀ other ∈ [pos], Marked w other := by
    intro other member
    rw [List.mem_singleton.mp member]
    exact here
  have operands : ∀ inner ∈ [left, right], Placed w inner := by
    intro inner member
    simp only [List.mem_cons, List.not_mem_nil, or_false] at member
    rcases member with rfl | rfl
    · exact before
    · exact after
  cases connective with
  | binary op => exact .mk own operands
  | logical op => exact .mk own operands

end Placed

mutual

theorem Primary.placed : ∀ {w : List Token} {e : Expr}, Primary w e → Placed w e
  | _, _, .literal _ => .mk (by simp [Expr.places, Marked]) nofun
  | _, _, .name _ => .mk (by simp [Expr.places, Marked]) nofun
  | _, _, .array _ inside => by
      apply Placed.mk (by simp [Expr.places, Marked])
      intro inner member
      exact (inside.placed inner member).mono (List.subset_cons_self _ _)
  | _, _, .group _ inside _ => by
      apply Placed.mono (Chained.placed inside)
      intro t member
      simp [member]

theorem Postfixed.placed : ∀ {w : List Token} {e : Expr}, Postfixed w e → Placed w e
  | _, _, .primary whole => whole.placed
  | _, _, @Postfixed.member w _ dot name _ before _ _ => by
      have objects := before.placed.mono (List.subset_append_left w [dot, name])
      apply Placed.mk
      · intro pos place
        simp only [Expr.places, List.mem_cons, List.not_mem_nil, or_false] at place
        rcases place with rfl | rfl
        · exact .of_mem (by simp)
        · exact .of_mem (by simp)
      · intro inner member
        rw [List.mem_singleton.mp member]
        exact objects
  | _, _, @Postfixed.index w v _ _ opening closing before _ inside _ => by
      have objects := before.placed.mono (List.subset_append_left w (opening :: v))
      have positions := inside.placed.mono (List.subset_append_right (w ++ [opening]) v)
      apply Placed.mk
      · intro pos place
        rw [List.mem_singleton.mp place]
        exact .of_mem (by simp)
      · intro inner member
        simp only [Expr.operands, List.mem_cons, List.not_mem_nil, or_false] at member
        rcases member with rfl | rfl
        · exact objects.mono (List.subset_append_left _ _)
        · apply positions.mono
          rw [List.append_assoc]
          exact List.subset_append_left _ _
  | _, _, @Postfixed.call w v _ _ opening before _ inside => by
      have callees := before.placed.mono (List.subset_append_left w (opening :: v))
      have others := inside.placed
      apply Placed.mk
      · intro pos place
        rw [List.mem_singleton.mp place]
        exact .of_mem (by simp)
      · intro inner member
        rcases List.mem_cons.mp member with rfl | later
        · exact callees
        · apply (others inner later).mono
          intro t member
          simp [member]

theorem Chained.placed : ∀ {level : Nat} {w : List Token} {e : Expr}, Chained level w e →
    Placed w e
  | _, _, _, .postfixed whole => whole.placed
  | _, _, _, .unary _ after => by
      have operands := after.placed
      apply Placed.mk (by simp [Expr.places, Marked])
      intro inner member
      rw [List.mem_singleton.mp member]
      exact operands.mono (List.subset_cons_self _ _)
  | _, _, _, .tighter whole => whole.placed
  | _, _, _, @Chained.connective _ w v _ _ t _ connective before _ _ after => by
      have lefts := before.placed.mono (List.subset_append_left w (t :: v))
      have rights := (after.placed.mono (List.subset_cons_self t v)).mono
        (List.subset_append_right w (t :: v))
      exact .join (.of_mem (by simp)) lefts rights connective

theorem Items.placed : ∀ {closing : Punct} {w : List Token} {es : List Expr},
    Items closing w es → ∀ e ∈ es, Placed w e
  | _, _, _, .none _ => nofun
  | _, _, _, .last one _ => by
      have items := one.placed
      intro e member
      rw [List.mem_singleton.mp member]
      exact items.mono (List.subset_append_left _ _)
  | _, _, _, @Items.more _ w v _ _ t one _ others => by
      have items := one.placed.mono (List.subset_append_left w (t :: v))
      have more := others.placed
      intro e member
      rcases List.mem_cons.mp member with rfl | later
      · exact items
      · apply (more e later).mono
        intro t member
        simp [member]

end

def Laid (w : List Token) (s : Stmt) : Prop :=
  ∀ part : Stmt, part.Part s →
    (∀ pos ∈ part.places, Marked w pos) ∧ ∀ e ∈ part.operands, Placed w e

section Laid

variable {w v : List Token} {s : Stmt}

theorem Laid.mono (laid : Laid w s) (within : w ⊆ v) : Laid v s := by
  intro part inside
  obtain ⟨own, operands⟩ := laid part inside
  exact ⟨fun pos place => (own pos place).mono within,
    fun e member => (operands e member).mono within⟩

theorem Laid.mk (own : ∀ pos ∈ s.places, Marked w pos) (operands : ∀ e ∈ s.operands, Placed w e)
    (inner : ∀ child ∈ s.inner, Laid w child) : Laid w s := by
  intro part inside
  cases inside with
  | self => exact ⟨own, operands⟩
  | inner member within => exact inner _ member part within

theorem Laid.single {t : Token} (member : t ∈ w) (places : s.places = [t.pos])
    (operands : ∀ e ∈ s.operands, Placed w e) (inner : ∀ child ∈ s.inner, Laid w child) :
    Laid w s := by
  have own : ∀ pos ∈ s.places, Marked w pos := by
    intro pos place
    rw [places, List.mem_singleton] at place
    rw [place]
    exact .of_mem member
  exact .mk own operands inner

end Laid

theorem Assignable.placed {w : List Token} {left : Expr} {target : Target}
    (assignable : Assignable left target) (placed : Placed w left) :
    Marked w target.pos ∧ ∀ e ∈ target.operands, Placed w e := by
  cases assignable with
  | name pos text => exact ⟨placed _ .self pos List.mem_cons_self, nofun⟩
  | index pos object position =>
      refine ⟨placed _ .self pos List.mem_cons_self, ?_⟩
      intro e member part inside
      exact placed part (.operand member inside)

theorem Simple.laid {enclosing : Enclosing} {w : List Token} {s : Stmt}
    (derived : Simple enclosing w s) : Laid w s := by
  cases derived with
  | declare _ _ _ => exact .single List.mem_cons_self rfl nofun nofun
  | define _ _ _ after =>
      refine .single List.mem_cons_self rfl ?_ nofun
      intro e member
      rw [List.mem_singleton.mp member]
      apply (Chained.placed after).mono
      intro t inside
      simp [inside]
  | @assign first equals w v _ value target before assignable _ after =>
      have lefts := (Chained.placed before).mono
        (List.subset_append_left (first :: w) (equals :: v))
      have values := ((Chained.placed after).mono (List.subset_cons_self equals v)).mono
        (List.subset_append_right (first :: w) (equals :: v))
      obtain ⟨place, operands⟩ := assignable.placed lefts
      refine .mk ?_ ?_ nofun
      · intro pos member
        simp only [Stmt.places, List.mem_cons, List.not_mem_nil, or_false] at member
        rcases member with rfl | rfl
        · exact .of_mem List.mem_cons_self
        · exact place
      · intro e member
        rcases List.mem_cons.mp member with rfl | inside
        · exact values
        · exact operands e inside
  | expr whole =>
      refine .single List.mem_cons_self rfl ?_ nofun
      intro e member
      rw [List.mem_singleton.mp member]
      exact Chained.placed whole
  | «break» _ _ => exact .single List.mem_cons_self rfl nofun nofun
  | «continue» _ _ => exact .single List.mem_cons_self rfl nofun nofun

theorem Condition.placed {w : List Token} {test : Expr} (condition : Condition w test) :
    Placed w test := by
  cases condition with
  | mk _ inside _ =>
      apply (Chained.placed inside).mono
      intro t member
      simp [member]

theorem Laid.headed {w : List Token} {s : Stmt} {word : Token} {test : Expr} (member : word ∈ w)
    (places : s.places = [word.pos]) (operands : s.operands = [test]) (tested : Placed w test)
    (inner : ∀ child ∈ s.inner, Laid w child) : Laid w s := by
  apply Laid.single member places _ inner
  intro e inside
  rw [operands, List.mem_singleton] at inside
  rw [inside]
  exact tested

def Sorted (w : List Token) (c : Clause) : Prop :=
  (∀ test, c.test = some test → Placed w test) ∧ ∀ s ∈ c.body, Laid w s

theorem Sorted.mono {w v : List Token} {c : Clause} (sorted : Sorted w c) (within : w ⊆ v) :
    Sorted v c :=
  ⟨fun test tested => (sorted.1 test tested).mono within,
    fun s member => (sorted.2 s member).mono within⟩

mutual

theorem Statement.laid : ∀ {enclosing : Enclosing} {w : List Token} {next : Token} {s : Stmt},
    Statement enclosing w next s → Laid w s
  | _, _, _, _, .terminated whole _ => whole.laid.mono (List.subset_append_left _ _)
  | _, _, _, _, .unterminated whole _ => whole.laid
  | _, _, _, _, .empty _ => .single List.mem_cons_self rfl nofun nofun
  | _, _, _, _, @Statement.block _ w _ opening closing body _ inside _ => by
      have statements := inside.laid
      refine .single List.mem_cons_self rfl nofun ?_
      intro child member
      apply (statements child member).mono
      intro t inside
      simp [inside]
  | _, _, _, _, @Statement.if _ v w _ word _ _ _ condition branch _ => by
      have tested := condition.placed.mono (List.subset_cons_self word v)
      have yes := branch.laid.mono (List.subset_append_right (word :: v) w)
      apply Laid.headed (by simp) rfl rfl (tested.mono (List.subset_append_left _ _))
      intro child member
      rw [List.mem_singleton.mp member]
      exact yes
  | _, _, _, _, @Statement.ifElse _ v w u _ word other _ _ _ _ condition branch _ rest => by
      have tested := condition.placed.mono (List.subset_cons_self word v)
      have yes := branch.laid.mono (List.subset_append_right (word :: v) w)
      have no := rest.laid.mono (List.subset_cons_self other u)
      refine .headed (by simp) rfl rfl ((tested.mono (List.subset_append_left _ _)).mono
        (List.subset_append_left _ _)) ?_
      intro child member
      simp only [Stmt.inner, Option.toList_some, List.mem_cons, List.not_mem_nil,
        or_false] at member
      rcases member with rfl | rfl
      · exact yes.mono (List.subset_append_left _ _)
      · exact no.mono (List.subset_append_right _ _)
  | _, _, _, _, @Statement.while _ v w _ word _ _ _ condition turn => by
      have tested := condition.placed.mono (List.subset_cons_self word v)
      have body := turn.laid.mono (List.subset_append_right (word :: v) w)
      apply Laid.headed (by simp) rfl rfl (tested.mono (List.subset_append_left _ _))
      intro child member
      rw [List.mem_singleton.mp member]
      exact body
  | _, _, _, _, @Statement.switch _ v w _ word opening closing _ _ _ condition _ inside _ _ => by
      have subjects := condition.placed
      have sorted := inside.sorted
      have before : v ⊆ word :: v ++ opening :: w ++ [closing] := by
        intro t member
        simp [member]
      have within : w ⊆ word :: v ++ opening :: w ++ [closing] := by
        intro t member
        simp [member]
      apply Laid.single List.mem_cons_self rfl
      · intro e member
        rcases List.mem_cons.mp member with rfl | tests
        · exact subjects.mono before
        · obtain ⟨c, member, tested⟩ := List.mem_filterMap.mp tests
          exact ((sorted c member).1 e tested).mono within
      · intro child member
        obtain ⟨c, member, inside⟩ := List.mem_flatMap.mp member
        exact ((sorted c member).2 child inside).mono within

theorem Statements.laid : ∀ {enclosing : Enclosing} {w : List Token} {next : Token}
    {body : List Stmt}, Statements enclosing w next body → ∀ s ∈ body, Laid w s
  | _, _, _, _, .nil => nofun
  | _, _, _, _, @Statements.cons _ w v _ _ _ first others => by
      have here := first.laid.mono (List.subset_append_left w v)
      have more := others.laid
      intro s member
      rcases List.mem_cons.mp member with rfl | later
      · exact here
      · exact (more s later).mono (List.subset_append_right w v)

theorem Clauses.sorted : ∀ {enclosing : Enclosing} {w : List Token} {next : Token}
    {clauses : List Clause}, Clauses enclosing w next clauses → ∀ c ∈ clauses, Sorted w c
  | _, _, _, _, .nil => nofun
  | _, _, _, _, @Clauses.case _ w v u _ word colon _ _ _ _ tested _ inside others => by
      have tests := Chained.placed tested
      have body := inside.laid
      have more := others.sorted
      intro c member
      rcases List.mem_cons.mp member with rfl | later
      · constructor
        · rintro test ⟨⟩
          apply tests.mono
          intro t inside
          simp [inside]
        · intro s inside
          apply (body s inside).mono
          intro t inside
          simp [inside]
      · exact (more c later).mono (List.subset_append_right _ u)
  | _, _, _, _, @Clauses.default _ v u _ word colon _ _ _ _ inside others => by
      have body := inside.laid
      have more := others.sorted
      intro c member
      rcases List.mem_cons.mp member with rfl | later
      · refine ⟨nofun, ?_⟩
        intro s inside
        apply (body s inside).mono
        intro t inside
        simp [inside]
      · exact (more c later).mono (List.subset_append_right _ u)

end

end Script.Grammar

namespace Script.Program

variable {tokens : List Token} {p : Program}

theorem Derived.laid (derived : Derived tokens p) {s : Stmt} (has : p.Has s) :
    (∀ pos ∈ s.places, Grammar.Marked tokens pos) ∧
      ∀ e ∈ s.operands, Grammar.Placed tokens e := by
  obtain ⟨stops, whole⟩ := derived
  obtain ⟨top, member, part⟩ := has
  exact ((whole.laid top member).mono (List.subset_append_left _ _)) s part

theorem Derived.placed (derived : Derived tokens p) {e : Expr} (uses : p.Uses e) :
    ∀ pos ∈ e.places, Grammar.Marked tokens pos := by
  obtain ⟨s, has, top, member, part⟩ := uses
  exact (derived.laid has).2 top member e part

end Script.Program
