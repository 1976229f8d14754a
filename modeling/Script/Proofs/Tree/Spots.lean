import Script.Proofs.Grammar.Places
import Script.Proofs.Grammar.Reading

/-!
Where the nodes of a tree stand. Each stands where a token does, for else it could be moved alone and
the tokens would write two programs; and the tokens of a text have lines counted from one.
-/

namespace Script

namespace Expr

mutual

def spots : Expr → List Pos
  | .literal pos _ | .name pos _ => [pos]
  | .array pos items => pos :: spotsAll items
  | .binary pos _ left right | .logical pos _ left right => pos :: (left.spots ++ right.spots)
  | .unary pos _ operand => pos :: operand.spots
  | .member pos object _ namePos => pos :: (object.spots ++ [namePos])
  | .index pos object position => pos :: (object.spots ++ position.spots)
  | .call pos callee arguments => pos :: (callee.spots ++ spotsAll arguments)

def spotsAll : List Expr → List Pos
  | [] => []
  | e :: rest => e.spots ++ spotsAll rest

end

end Expr

def Target.spots : Target → List Pos
  | .name pos _ => [pos]
  | .index pos object position => pos :: (object.spots ++ position.spots)

mutual

def Stmt.spots : Stmt → List Pos
  | .declare pos _ _ none => [pos]
  | .declare pos _ _ (some value) => pos :: value.spots
  | .assign pos target value => pos :: (target.spots ++ value.spots)
  | .expr pos value => pos :: value.spots
  | .block pos body => pos :: Stmt.spotsAll body
  | .if pos test yes none => pos :: (test.spots ++ yes.spots)
  | .if pos test yes (some no) => pos :: (test.spots ++ (yes.spots ++ no.spots))
  | .while pos test body => pos :: (test.spots ++ body.spots)
  | .switch pos subject clauses => pos :: (subject.spots ++ Clause.spotsAll clauses)
  | .break pos => [pos]
  | .continue pos => [pos]

def Stmt.spotsAll : List Stmt → List Pos
  | [] => []
  | s :: rest => s.spots ++ Stmt.spotsAll rest

def Clause.spotsAll : List Clause → List Pos
  | [] => []
  | .mk pos none body :: rest => pos :: (Stmt.spotsAll body ++ Clause.spotsAll rest)
  | .mk pos (some test) body :: rest =>
    pos :: (test.spots ++ (Stmt.spotsAll body ++ Clause.spotsAll rest))

end

def Program.spots (p : Program) : List Pos := Stmt.spotsAll p

section Moved

variable {f : Pos → Pos}

mutual

theorem Expr.spots_moved : ∀ e : Expr, (e.moved f).spots = e.spots.map f
  | .literal .. | .name .. => rfl
  | .array _ items => by
      simp only [Expr.moved, Expr.spots, Expr.spotsAll_moved items, List.map_cons]
  | .binary _ _ left right | .logical _ _ left right => by
      simp only [Expr.moved, Expr.spots, left.spots_moved, right.spots_moved, List.map_cons,
        List.map_append]
  | .unary _ _ operand => by
      simp only [Expr.moved, Expr.spots, operand.spots_moved, List.map_cons]
  | .member _ object _ _ => by
      simp only [Expr.moved, Expr.spots, object.spots_moved, List.map_cons, List.map_append,
        List.map_nil]
  | .index _ object position => by
      simp only [Expr.moved, Expr.spots, object.spots_moved, position.spots_moved, List.map_cons,
        List.map_append]
  | .call _ callee arguments => by
      simp only [Expr.moved, Expr.spots, callee.spots_moved, Expr.spotsAll_moved arguments,
        List.map_cons, List.map_append]

theorem Expr.spotsAll_moved : ∀ es : List Expr,
    Expr.spotsAll (Expr.movedAll f es) = (Expr.spotsAll es).map f
  | [] => rfl
  | e :: rest => by
      simp only [Expr.movedAll, Expr.spotsAll, e.spots_moved, Expr.spotsAll_moved rest,
        List.map_append]

end

theorem Target.spots_moved (target : Target) : (target.moved f).spots = target.spots.map f := by
  cases target with
  | name pos text => rfl
  | index pos object position =>
      simp only [Target.moved, Target.spots, Expr.spots_moved, List.map_cons, List.map_append]

mutual

theorem Stmt.spots_moved : ∀ s : Stmt, (s.moved f).spots = s.spots.map f
  | .declare _ _ _ none | .break _ | .continue _ => rfl
  | .declare _ _ _ (some value) => by
      simp only [Stmt.moved, Option.map_some, Stmt.spots, value.spots_moved, List.map_cons]
  | .assign _ target value => by
      simp only [Stmt.moved, Stmt.spots, target.spots_moved, value.spots_moved, List.map_cons,
        List.map_append]
  | .expr _ value => by
      simp only [Stmt.moved, Stmt.spots, value.spots_moved, List.map_cons]
  | .block _ body => by
      simp only [Stmt.moved, Stmt.spots, Stmt.spotsAll_moved body, List.map_cons]
  | .if _ test yes none => by
      simp only [Stmt.moved, Stmt.spots, test.spots_moved, yes.spots_moved, List.map_cons,
        List.map_append]
  | .if _ test yes (some no) => by
      simp only [Stmt.moved, Stmt.spots, test.spots_moved, yes.spots_moved, no.spots_moved,
        List.map_cons, List.map_append]
  | .while _ test body => by
      simp only [Stmt.moved, Stmt.spots, test.spots_moved, body.spots_moved, List.map_cons,
        List.map_append]
  | .switch _ subject clauses => by
      simp only [Stmt.moved, Stmt.spots, subject.spots_moved, Clause.spotsAll_moved clauses,
        List.map_cons, List.map_append]

theorem Stmt.spotsAll_moved : ∀ body : List Stmt,
    Stmt.spotsAll (Stmt.movedAll f body) = (Stmt.spotsAll body).map f
  | [] => rfl
  | s :: rest => by
      simp only [Stmt.movedAll, Stmt.spotsAll, s.spots_moved, Stmt.spotsAll_moved rest,
        List.map_append]

theorem Clause.spotsAll_moved : ∀ clauses : List Clause,
    Clause.spotsAll (Clause.movedAll f clauses) = (Clause.spotsAll clauses).map f
  | [] => rfl
  | .mk _ none body :: rest => by
      simp only [Clause.movedAll, Option.map_none, Clause.spotsAll, Stmt.spotsAll_moved body,
        Clause.spotsAll_moved rest, List.map_cons, List.map_append]
  | .mk _ (some test) body :: rest => by
      simp only [Clause.movedAll, Option.map_some, Clause.spotsAll, test.spots_moved,
        Stmt.spotsAll_moved body, Clause.spotsAll_moved rest, List.map_cons, List.map_append]

end

end Moved

namespace Program

variable {tokens : List Token} {p : Program}

theorem Derived.moved {f : Pos → Pos} (keeps : Grammar.KeepsLines f) (derived : Derived tokens p) :
    Derived (tokens.map (Token.moved f)) (p.moved f) := by
  obtain ⟨stops, whole⟩ := derived
  rw [List.map_append]
  exact .mk stops (whole.moved keeps)

/-- Every node stands where a token does: any other place could be moved and the tokens stay. -/
theorem Derived.marked (derived : Derived tokens p) : ∀ pos ∈ p.spots, Grammar.Marked tokens pos := by
  intro pos member
  apply Classical.byContradiction
  intro unmarked
  let aside (other : Pos) : Pos := if other = pos then ⟨pos.line, pos.column + 1⟩ else other
  have lines : ∀ other, (aside other).line = other.line := by
    intro other
    by_cases same : other = pos <;> simp [aside, same]
  have keeps : Grammar.KeepsLines aside := by
    intro a b later
    rw [lines, lines]
    exact later
  have still : tokens.map (Token.moved aside) = tokens := by
    rw [List.map_congr_left (g := id), List.map_id]
    intro t inside
    have apart : t.pos ≠ pos := fun same => unmarked ⟨t, inside, same⟩
    simp [Token.moved, aside, apart]
  have moved := derived.moved keeps
  rw [still] at moved
  have alike : p.moved aside = p := Except.ok.inj (moved.reads.symm.trans derived.reads)
  have fixed : p.spots.map aside = p.spots.map id := by
    calc p.spots.map aside = (p.moved aside).spots := (Stmt.spotsAll_moved p).symm
      _ = p.spots.map id := by rw [alike, List.map_id]
  have here : aside pos = pos := List.map_inj_left.mp fixed pos member
  have column := congrArg Pos.column here
  simp [aside] at column

end Program

theorem Token.scanFrom_lines (pos : Pos) (cs : List Char) :
    ∀ t ∈ (scanFrom pos cs).tokens, pos.line ≤ t.pos.line := by
  have gap : pos.line ≤ (pos.after (filler cs).taken).line := by
    rw [Pos.line_after]
    exact Nat.le_add_right _ _
  rw [scanFrom]
  split
  · intro t member
    rw [List.mem_singleton.mp member]
    exact gap
  · next c rest known =>
      split
      · intro t member
        cases member
      · next found read =>
          have shorter : found.rest.length < cs.length := by
            have least := found.rest_lt found.taken_ne_nil
            have within := (filler cs).rest_le
            rw [known] at within
            exact Nat.lt_of_lt_of_le least within
          intro t member
          rcases List.mem_cons.mp member with rfl | later
          · exact gap
          · have further := scanFrom_lines _ found.rest t later
            rw [Pos.line_after] at further
            exact Nat.le_trans gap (Nat.le_trans (Nat.le_add_right _ _) further)
termination_by cs.length

theorem Program.lines_of_read {source : String} {p : Program} (reads : Program.read source = .ok p) :
    ∀ pos ∈ p.spots, pos.line ≠ 0 := by
  obtain ⟨-, derived⟩ := read_eq_ok_iff.mp reads
  intro pos member
  obtain ⟨t, inside, rfl⟩ := derived.marked pos member
  exact Nat.ne_of_gt (Token.scanFrom_lines .start source.toList t inside)

end Script
