import Script.Proofs.Grammar.Written
import Script.Proofs.Tree.Spots
import Script.Tree.Dump

/-!
What a dump tells of a program: all of it, but that the literals `null` and `undefined` look like
the strings of those words. Every node of a program that was read has its place in the dump.
-/

namespace Script

def Literal.worded : Literal → Literal
  | .null => .string "null"
  | .undefined => .string "undefined"
  | value => value

namespace Expr

mutual

def worded : Expr → Expr
  | .literal pos value => .literal pos value.worded
  | .name pos text => .name pos text
  | .array pos items => .array pos (wordedAll items)
  | .binary pos op left right => .binary pos op left.worded right.worded
  | .logical pos op left right => .logical pos op left.worded right.worded
  | .unary pos op operand => .unary pos op operand.worded
  | .member pos object text namePos => .member pos object.worded text namePos
  | .index pos object position => .index pos object.worded position.worded
  | .call pos callee arguments => .call pos callee.worded (wordedAll arguments)

def wordedAll : List Expr → List Expr
  | [] => []
  | e :: rest => e.worded :: wordedAll rest

end

end Expr

def Target.worded : Target → Target
  | .name pos text => .name pos text
  | .index pos object position => .index pos object.worded position.worded

mutual

def Stmt.worded : Stmt → Stmt
  | .declare pos kind text value? => .declare pos kind text (value?.map Expr.worded)
  | .assign pos target value => .assign pos target.worded value.worded
  | .expr pos value => .expr pos value.worded
  | .block pos body => .block pos (Stmt.wordedAll body)
  | .if pos test yes none => .if pos test.worded yes.worded none
  | .if pos test yes (some no) => .if pos test.worded yes.worded (some no.worded)
  | .while pos test body => .while pos test.worded body.worded
  | .switch pos subject clauses => .switch pos subject.worded (Clause.wordedAll clauses)
  | .break pos => .break pos
  | .continue pos => .continue pos

def Stmt.wordedAll : List Stmt → List Stmt
  | [] => []
  | s :: rest => s.worded :: Stmt.wordedAll rest

def Clause.wordedAll : List Clause → List Clause
  | [] => []
  | .mk pos test? body :: rest =>
    .mk pos (test?.map Expr.worded) (Stmt.wordedAll body) :: Clause.wordedAll rest

end

def Program.worded (p : Program) : Program := Stmt.wordedAll p

section Dump

theorem Literal.dump_worded (value : Literal) : value.worded.dump = value.dump := by
  cases value <;> rfl

mutual

theorem Expr.dump_worded : ∀ e : Expr, e.worded.dump = e.dump
  | .literal _ value => by simp only [Expr.worded, Expr.dump, value.dump_worded]
  | .name .. => rfl
  | .array _ items => by simp only [Expr.worded, Expr.dump, Expr.dumpAll_worded items]
  | .binary _ _ left right | .logical _ _ left right => by
      simp only [Expr.worded, Expr.dump, left.dump_worded, right.dump_worded]
  | .unary _ _ operand => by simp only [Expr.worded, Expr.dump, operand.dump_worded]
  | .member _ object _ _ => by simp only [Expr.worded, Expr.dump, object.dump_worded]
  | .index _ object position => by
      simp only [Expr.worded, Expr.dump, object.dump_worded, position.dump_worded]
  | .call _ callee arguments => by
      simp only [Expr.worded, Expr.dump, callee.dump_worded, Expr.dumpAll_worded arguments]

theorem Expr.dumpAll_worded : ∀ es : List Expr, Expr.dumpAll (Expr.wordedAll es) = Expr.dumpAll es
  | [] => rfl
  | e :: rest => by
      simp only [Expr.wordedAll, Expr.dumpAll, e.dump_worded, Expr.dumpAll_worded rest]

end

theorem dumpOptional_worded (value? : Option Expr) :
    dumpOptional (value?.map Expr.worded) = dumpOptional value? := by
  cases value? with
  | none => rfl
  | some value => exact value.dump_worded

theorem Target.toExpr_worded (target : Target) : target.worded.toExpr = target.toExpr.worded := by
  cases target <;> rfl

mutual

theorem Stmt.dump_worded : ∀ s : Stmt, s.worded.dump = s.dump
  | .declare _ _ _ value? => by
      simp only [Stmt.worded, Stmt.dump, dumpOptional_worded value?]
  | .assign _ target value => by
      simp only [Stmt.worded, Stmt.dump, target.toExpr_worded, Expr.dump_worded]
  | .expr _ value => by simp only [Stmt.worded, Stmt.dump, value.dump_worded]
  | .block _ body => by simp only [Stmt.worded, Stmt.dump, Stmt.dumpAll_worded body]
  | .if _ test yes none => by
      simp only [Stmt.worded, Stmt.dump, test.dump_worded, yes.dump_worded]
  | .if _ test yes (some no) => by
      simp only [Stmt.worded, Stmt.dump, test.dump_worded, yes.dump_worded, no.dump_worded]
  | .while _ test body => by
      simp only [Stmt.worded, Stmt.dump, test.dump_worded, body.dump_worded]
  | .switch _ subject clauses => by
      simp only [Stmt.worded, Stmt.dump, subject.dump_worded, Clause.dumpAll_worded clauses]
  | .break _ | .continue _ => rfl

theorem Stmt.dumpAll_worded : ∀ body : List Stmt,
    Stmt.dumpAll (Stmt.wordedAll body) = Stmt.dumpAll body
  | [] => rfl
  | s :: rest => by
      simp only [Stmt.wordedAll, Stmt.dumpAll, s.dump_worded, Stmt.dumpAll_worded rest]

theorem Clause.dumpAll_worded : ∀ clauses : List Clause,
    Stmt.dumpClauses (Clause.wordedAll clauses) = Stmt.dumpClauses clauses
  | [] => rfl
  | .mk _ test? body :: rest => by
      simp only [Clause.wordedAll, Stmt.dumpClauses, dumpOptional_worded test?,
        Stmt.dumpAll_worded body, Clause.dumpAll_worded rest]

end

theorem Program.dump_worded (p : Program) : p.worded.dump = p.dump := by
  rw [Program.dump, Program.dump, Program.worded, Stmt.dumpAll_worded]

end Dump

section Identified

/-- Every one of the places has a line. -/
def Lined (spots : List Pos) : Prop := ∀ pos ∈ spots, pos.line ≠ 0

theorem lined_cons {pos : Pos} {spots : List Pos} :
    Lined (pos :: spots) ↔ pos.line ≠ 0 ∧ Lined spots := List.forall_mem_cons

theorem lined_append {spots more : List Pos} :
    Lined (spots ++ more) ↔ Lined spots ∧ Lined more := List.forall_mem_append

theorem Pos.dump_of_line {pos : Pos} (lined : pos.line ≠ 0) :
    pos.dump = [("line", .natural pos.line), ("column", .natural pos.column)] := if_neg lined

theorem node_inj {type type' : String} {fields fields' : List (String × Json)} {pos pos' : Pos}
    (lined : pos.line ≠ 0) (lined' : pos'.line ≠ 0)
    (same : node type fields pos = node type' fields' pos') :
    type = type' ∧ fields = fields' ∧ pos = pos' := by
  rw [node, node, Pos.dump_of_line lined, Pos.dump_of_line lined'] at same
  obtain ⟨types, rest⟩ := List.cons.inj (Json.object.inj same)
  obtain ⟨fields, places⟩ := List.append_inj' rest rfl
  refine ⟨?_, fields, ?_⟩
  · simpa using types
  · obtain ⟨line, column⟩ := pos
    obtain ⟨line', column'⟩ := pos'
    simpa using places

theorem BinaryOp.spelling_injective {op op' : BinaryOp} (same : op.spelling = op'.spelling) :
    op = op' := by
  cases op <;> cases op' <;> first | rfl | exact absurd same (by decide)

theorem LogicalOp.spelling_injective {op op' : LogicalOp} (same : op.spelling = op'.spelling) :
    op = op' := by
  cases op <;> cases op' <;> first | rfl | exact absurd same (by decide)

theorem UnaryOp.spelling_injective {op op' : UnaryOp} (same : op.spelling = op'.spelling) :
    op = op' := by
  cases op <;> cases op' <;> first | rfl | exact absurd same (by decide)

theorem DeclKind.spelling_injective {kind kind' : DeclKind}
    (same : kind.spelling = kind'.spelling) : kind = kind' := by
  cases kind <;> cases kind' <;> first | rfl | exact absurd same (by decide)

theorem Literal.worded_of_dump {value value' : Literal} (same : value.dump = value'.dump) :
    value.worded = value'.worded := by
  cases value <;> cases value' <;> simp_all [dump, worded]

mutual

theorem Expr.worded_of_dump : ∀ {e e' : Expr}, Lined e.spots → Lined e'.spots → e.dump = e'.dump →
    e.worded = e'.worded
  | .literal pos value, e', lined, lined', same => by
      cases e' with
      | literal pos' value' =>
          obtain ⟨-, fields, rfl⟩ := node_inj (lined_cons.mp lined).1 (lined_cons.mp lined').1 same
          have values := Literal.worded_of_dump (by simpa using fields)
          rw [Expr.worded, Expr.worded, values]
      | _ => simp [Expr.dump, nameNode, node] at same
  | .name pos text, e', lined, lined', same => by
      cases e' with
      | name pos' text' =>
          obtain ⟨-, fields, rfl⟩ := node_inj (lined_cons.mp lined).1 (lined_cons.mp lined').1 same
          simp_all
      | _ => simp [Expr.dump, nameNode, node] at same
  | .array pos items, e', lined, lined', same => by
      cases e' with
      | array pos' items' =>
          obtain ⟨here, inside⟩ := lined_cons.mp lined
          obtain ⟨here', inside'⟩ := lined_cons.mp lined'
          obtain ⟨-, fields, rfl⟩ := node_inj here here' same
          have all := Expr.wordedAll_of_dump inside inside' (by simpa using fields)
          rw [Expr.worded, Expr.worded, all]
      | _ => simp [Expr.dump, nameNode, node] at same
  | .binary pos op left right, e', lined, lined', same => by
      cases e' with
      | binary pos' op' left' right' =>
          simp only [Expr.spots, lined_cons, lined_append] at lined lined'
          obtain ⟨here, before, after⟩ := lined
          obtain ⟨here', before', after'⟩ := lined'
          obtain ⟨-, fields, rfl⟩ := node_inj here here' same
          simp only [List.cons.injEq, Prod.mk.injEq, true_and, and_true, Json.string.injEq] at fields
          obtain ⟨lefts, ops, rights⟩ := fields
          rw [Expr.worded, Expr.worded, BinaryOp.spelling_injective ops,
            left.worded_of_dump before before' lefts, right.worded_of_dump after after' rights]
      | _ => simp [Expr.dump, nameNode, node] at same
  | .logical pos op left right, e', lined, lined', same => by
      cases e' with
      | logical pos' op' left' right' =>
          simp only [Expr.spots, lined_cons, lined_append] at lined lined'
          obtain ⟨here, before, after⟩ := lined
          obtain ⟨here', before', after'⟩ := lined'
          obtain ⟨-, fields, rfl⟩ := node_inj here here' same
          simp only [List.cons.injEq, Prod.mk.injEq, true_and, and_true, Json.string.injEq] at fields
          obtain ⟨lefts, ops, rights⟩ := fields
          rw [Expr.worded, Expr.worded, LogicalOp.spelling_injective ops,
            left.worded_of_dump before before' lefts, right.worded_of_dump after after' rights]
      | _ => simp [Expr.dump, nameNode, node] at same
  | .unary pos op operand, e', lined, lined', same => by
      cases e' with
      | unary pos' op' operand' =>
          obtain ⟨here, inside⟩ := lined_cons.mp lined
          obtain ⟨here', inside'⟩ := lined_cons.mp lined'
          obtain ⟨-, fields, rfl⟩ := node_inj here here' same
          simp only [List.cons.injEq, Prod.mk.injEq, true_and, and_true, Json.string.injEq] at fields
          obtain ⟨ops, operands⟩ := fields
          rw [Expr.worded, Expr.worded, UnaryOp.spelling_injective ops,
            operand.worded_of_dump inside inside' operands]
      | _ => simp [Expr.dump, nameNode, node] at same
  | .member pos object text namePos, e', lined, lined', same => by
      cases e' with
      | member pos' object' text' namePos' =>
          simp only [Expr.spots, lined_cons, lined_append] at lined lined'
          obtain ⟨here, before, after, -⟩ := lined
          obtain ⟨here', before', after', -⟩ := lined'
          obtain ⟨-, fields, rfl⟩ := node_inj here here' same
          simp only [List.cons.injEq, Prod.mk.injEq, true_and, and_true] at fields
          obtain ⟨objects, names⟩ := fields
          obtain ⟨-, texts, rfl⟩ := node_inj after after' names
          simp only [List.cons.injEq, Prod.mk.injEq, true_and, and_true, Json.string.injEq] at texts
          rw [Expr.worded, Expr.worded, texts, object.worded_of_dump before before' objects]
      | _ => simp [Expr.dump, nameNode, node] at same
  | .index pos object position, e', lined, lined', same => by
      cases e' with
      | index pos' object' position' =>
          simp only [Expr.spots, lined_cons, lined_append] at lined lined'
          obtain ⟨here, before, after⟩ := lined
          obtain ⟨here', before', after'⟩ := lined'
          obtain ⟨-, fields, rfl⟩ := node_inj here here' same
          simp only [List.cons.injEq, Prod.mk.injEq, true_and, and_true] at fields
          obtain ⟨objects, positions⟩ := fields
          rw [Expr.worded, Expr.worded, object.worded_of_dump before before' objects,
            position.worded_of_dump after after' positions]
      | _ => simp [Expr.dump, nameNode, node] at same
  | .call pos callee arguments, e', lined, lined', same => by
      cases e' with
      | call pos' callee' arguments' =>
          simp only [Expr.spots, lined_cons, lined_append] at lined lined'
          obtain ⟨here, before, after⟩ := lined
          obtain ⟨here', before', after'⟩ := lined'
          obtain ⟨-, fields, rfl⟩ := node_inj here here' same
          simp only [List.cons.injEq, Prod.mk.injEq, true_and, and_true, Json.array.injEq] at fields
          obtain ⟨callees, others⟩ := fields
          rw [Expr.worded, Expr.worded, callee.worded_of_dump before before' callees,
            Expr.wordedAll_of_dump after after' others]
      | _ => simp [Expr.dump, nameNode, node] at same

theorem Expr.wordedAll_of_dump : ∀ {es es' : List Expr}, Lined (Expr.spotsAll es) →
    Lined (Expr.spotsAll es') → Expr.dumpAll es = Expr.dumpAll es' →
    Expr.wordedAll es = Expr.wordedAll es'
  | [], [], _, _, _ => rfl
  | [], _ :: _, _, _, same => by cases same
  | _ :: _, [], _, _, same => by cases same
  | e :: rest, e' :: rest', lined, lined', same => by
      obtain ⟨first, others⟩ := lined_append.mp lined
      obtain ⟨first', others'⟩ := lined_append.mp lined'
      obtain ⟨here, later⟩ := List.cons.inj same
      rw [Expr.wordedAll, Expr.wordedAll, e.worded_of_dump first first' here,
        Expr.wordedAll_of_dump others others' later]

end

theorem Expr.dump_ne_null (e : Expr) : e.dump ≠ .null := by
  cases e <;> nofun

theorem Stmt.dump_type (s : Stmt) :
    ∃ fields, s.dump = .object (("type", .string s.type) :: fields) := by
  cases s with
  | «if» pos test yes no => cases no <;> exact ⟨_, rfl⟩
  | _ => exact ⟨_, rfl⟩

theorem Stmt.type_of_dump {s s' : Stmt} (same : s.dump = s'.dump) : s.type = s'.type := by
  obtain ⟨fields, dump⟩ := s.dump_type
  obtain ⟨fields', dump'⟩ := s'.dump_type
  rw [dump, dump'] at same
  simp only [Json.object.injEq, List.cons.injEq, Prod.mk.injEq, true_and, Json.string.injEq] at same
  exact same.1

theorem Stmt.dump_ne_null (s : Stmt) : s.dump ≠ .null := by
  obtain ⟨fields, dump⟩ := s.dump_type
  rw [dump]
  exact nofun

def optionalSpots (value? : Option Expr) : List Pos := value?.elim [] Expr.spots

theorem Expr.wordedOptional_of_dump : ∀ {value? other? : Option Expr}, Lined (optionalSpots value?) →
    Lined (optionalSpots other?) → dumpOptional value? = dumpOptional other? →
    value?.map Expr.worded = other?.map Expr.worded
  | none, none, _, _, _ => rfl
  | none, some e', _, _, same => absurd same.symm e'.dump_ne_null
  | some e, none, _, _, same => absurd same e.dump_ne_null
  | some e, some _, lined, lined', same => congrArg some (e.worded_of_dump lined lined' same)

theorem Target.spots_toExpr (target : Target) : target.toExpr.spots = target.spots := by
  cases target <;> rfl

theorem Target.worded_of_dump {target target' : Target} (lined : Lined target.spots)
    (lined' : Lined target'.spots) (same : target.toExpr.dump = target'.toExpr.dump) :
    target.worded = target'.worded := by
  rw [← spots_toExpr] at lined lined'
  have alike := Expr.worded_of_dump lined lined' same
  cases target <;> cases target' <;> simp_all [Target.toExpr, Target.worded, Expr.worded]

theorem Stmt.spots_declare (pos : Pos) (kind : DeclKind) (name : String) (value? : Option Expr) :
    (Stmt.declare pos kind name value?).spots = pos :: optionalSpots value? := by
  cases value? <;> rfl

theorem Clause.spotsAll_cons (pos : Pos) (test? : Option Expr) (body : List Stmt)
    (rest : List Clause) : Clause.spotsAll (.mk pos test? body :: rest) =
      pos :: (optionalSpots test? ++ (Stmt.spotsAll body ++ Clause.spotsAll rest)) := by
  cases test? <;> rfl

mutual

theorem Stmt.worded_of_dump : ∀ {s s' : Stmt}, Lined s.spots → Lined s'.spots → s.dump = s'.dump →
    s.worded = s'.worded
  | .declare pos kind name value?, s', lined, lined', same => by
      cases s' with
      | declare pos' kind' name' other? =>
          rw [Stmt.spots_declare, lined_cons] at lined lined'
          obtain ⟨-, fields, rfl⟩ := node_inj lined.1 lined'.1 same
          simp only [List.cons.injEq, Prod.mk.injEq, true_and, and_true, Json.string.injEq] at fields
          obtain ⟨kinds, names, values⟩ := fields
          rw [Stmt.worded, Stmt.worded, DeclKind.spelling_injective kinds, names,
            Expr.wordedOptional_of_dump lined.2 lined'.2 values]
      | _ => exact absurd (Stmt.type_of_dump same) (by simp [Stmt.type])
  | .assign pos target value, s', lined, lined', same => by
      cases s' with
      | assign pos' target' value' =>
          simp only [Stmt.spots, lined_cons, lined_append] at lined lined'
          obtain ⟨here, before, after⟩ := lined
          obtain ⟨here', before', after'⟩ := lined'
          obtain ⟨-, fields, rfl⟩ := node_inj here here' same
          simp only [List.cons.injEq, Prod.mk.injEq, true_and, and_true] at fields
          obtain ⟨targets, values⟩ := fields
          rw [Stmt.worded, Stmt.worded, target.worded_of_dump before before' targets,
            value.worded_of_dump after after' values]
      | _ => exact absurd (Stmt.type_of_dump same) (by simp [Stmt.type])
  | .expr pos value, s', lined, lined', same => by
      cases s' with
      | expr pos' value' =>
          obtain ⟨here, inside⟩ := lined_cons.mp lined
          obtain ⟨here', inside'⟩ := lined_cons.mp lined'
          obtain ⟨-, fields, rfl⟩ := node_inj here here' same
          simp only [List.cons.injEq, Prod.mk.injEq, true_and, and_true] at fields
          rw [Stmt.worded, Stmt.worded, value.worded_of_dump inside inside' fields]
      | _ => exact absurd (Stmt.type_of_dump same) (by simp [Stmt.type])
  | .block pos body, s', lined, lined', same => by
      cases s' with
      | block pos' body' =>
          obtain ⟨here, inside⟩ := lined_cons.mp lined
          obtain ⟨here', inside'⟩ := lined_cons.mp lined'
          obtain ⟨-, fields, rfl⟩ := node_inj here here' same
          simp only [List.cons.injEq, Prod.mk.injEq, true_and, and_true, Json.array.injEq] at fields
          rw [Stmt.worded, Stmt.worded, Stmt.wordedAll_of_dump inside inside' fields]
      | _ => exact absurd (Stmt.type_of_dump same) (by simp [Stmt.type])
  | .if pos test yes none, s', lined, lined', same => by
      cases s' with
      | «if» pos' test' yes' no' =>
          cases no' with
          | none =>
              simp only [Stmt.spots, lined_cons, lined_append] at lined lined'
              obtain ⟨here, before, after⟩ := lined
              obtain ⟨here', before', after'⟩ := lined'
              obtain ⟨-, fields, rfl⟩ := node_inj here here' same
              simp only [List.cons.injEq, Prod.mk.injEq, true_and, and_true] at fields
              obtain ⟨tests, branches⟩ := fields
              rw [Stmt.worded, Stmt.worded, test.worded_of_dump before before' tests,
                yes.worded_of_dump after after' branches]
          | some other =>
              obtain ⟨-, fields, -⟩ := node_inj (lined_cons.mp lined).1 (lined_cons.mp lined').1 same
              simp only [List.cons.injEq, Prod.mk.injEq, true_and, and_true] at fields
              exact absurd fields.2.2.symm other.dump_ne_null
      | _ => exact absurd (Stmt.type_of_dump same) (by simp [Stmt.type])
  | .if pos test yes (some no), s', lined, lined', same => by
      cases s' with
      | «if» pos' test' yes' no' =>
          cases no' with
          | none =>
              obtain ⟨-, fields, -⟩ := node_inj (lined_cons.mp lined).1 (lined_cons.mp lined').1 same
              simp only [List.cons.injEq, Prod.mk.injEq, true_and, and_true] at fields
              exact absurd fields.2.2 no.dump_ne_null
          | some other =>
              simp only [Stmt.spots, lined_cons, lined_append] at lined lined'
              obtain ⟨here, before, after, last⟩ := lined
              obtain ⟨here', before', after', last'⟩ := lined'
              obtain ⟨-, fields, rfl⟩ := node_inj here here' same
              simp only [List.cons.injEq, Prod.mk.injEq, true_and, and_true] at fields
              obtain ⟨tests, branches, others⟩ := fields
              rw [Stmt.worded, Stmt.worded, test.worded_of_dump before before' tests,
                yes.worded_of_dump after after' branches, no.worded_of_dump last last' others]
      | _ => exact absurd (Stmt.type_of_dump same) (by simp [Stmt.type])
  | .while pos test body, s', lined, lined', same => by
      cases s' with
      | «while» pos' test' body' =>
          simp only [Stmt.spots, lined_cons, lined_append] at lined lined'
          obtain ⟨here, before, after⟩ := lined
          obtain ⟨here', before', after'⟩ := lined'
          obtain ⟨-, fields, rfl⟩ := node_inj here here' same
          simp only [List.cons.injEq, Prod.mk.injEq, true_and, and_true] at fields
          obtain ⟨tests, bodies⟩ := fields
          rw [Stmt.worded, Stmt.worded, test.worded_of_dump before before' tests,
            body.worded_of_dump after after' bodies]
      | _ => exact absurd (Stmt.type_of_dump same) (by simp [Stmt.type])
  | .switch pos subject clauses, s', lined, lined', same => by
      cases s' with
      | switch pos' subject' clauses' =>
          simp only [Stmt.spots, lined_cons, lined_append] at lined lined'
          obtain ⟨here, before, after⟩ := lined
          obtain ⟨here', before', after'⟩ := lined'
          obtain ⟨-, fields, rfl⟩ := node_inj here here' same
          simp only [List.cons.injEq, Prod.mk.injEq, true_and, and_true, Json.array.injEq] at fields
          obtain ⟨subjects, cases_⟩ := fields
          rw [Stmt.worded, Stmt.worded, subject.worded_of_dump before before' subjects,
            Clause.wordedAll_of_dump after after' cases_]
      | _ => exact absurd (Stmt.type_of_dump same) (by simp [Stmt.type])
  | .break pos, s', lined, lined', same => by
      cases s' with
      | «break» pos' =>
          obtain ⟨-, -, rfl⟩ := node_inj (lined_cons.mp lined).1 (lined_cons.mp lined').1 same
          rfl
      | _ => exact absurd (Stmt.type_of_dump same) (by simp [Stmt.type])
  | .continue pos, s', lined, lined', same => by
      cases s' with
      | «continue» pos' =>
          obtain ⟨-, -, rfl⟩ := node_inj (lined_cons.mp lined).1 (lined_cons.mp lined').1 same
          rfl
      | _ => exact absurd (Stmt.type_of_dump same) (by simp [Stmt.type])

theorem Stmt.wordedAll_of_dump : ∀ {body body' : List Stmt}, Lined (Stmt.spotsAll body) →
    Lined (Stmt.spotsAll body') → Stmt.dumpAll body = Stmt.dumpAll body' →
    Stmt.wordedAll body = Stmt.wordedAll body'
  | [], [], _, _, _ => rfl
  | [], _ :: _, _, _, same => by cases same
  | _ :: _, [], _, _, same => by cases same
  | s :: rest, s' :: rest', lined, lined', same => by
      obtain ⟨first, others⟩ := lined_append.mp lined
      obtain ⟨first', others'⟩ := lined_append.mp lined'
      obtain ⟨here, later⟩ := List.cons.inj same
      rw [Stmt.wordedAll, Stmt.wordedAll, s.worded_of_dump first first' here,
        Stmt.wordedAll_of_dump others others' later]

theorem Clause.wordedAll_of_dump : ∀ {clauses clauses' : List Clause},
    Lined (Clause.spotsAll clauses) → Lined (Clause.spotsAll clauses') →
    Stmt.dumpClauses clauses = Stmt.dumpClauses clauses' →
    Clause.wordedAll clauses = Clause.wordedAll clauses'
  | [], [], _, _, _ => rfl
  | [], .mk .. :: _, _, _, same => by cases same
  | .mk .. :: _, [], _, _, same => by cases same
  | .mk pos test? body :: rest, .mk pos' test?' body' :: rest', lined, lined', same => by
      simp only [Clause.spotsAll_cons, lined_cons, lined_append] at lined lined'
      obtain ⟨here, tested, inside, others⟩ := lined
      obtain ⟨here', tested', inside', others'⟩ := lined'
      obtain ⟨first, later⟩ := List.cons.inj same
      obtain ⟨-, fields, rfl⟩ := node_inj here here' first
      simp only [List.cons.injEq, Prod.mk.injEq, true_and, and_true, Json.array.injEq] at fields
      obtain ⟨tests, bodies⟩ := fields
      rw [Clause.wordedAll, Clause.wordedAll, Expr.wordedOptional_of_dump tested tested' tests,
        Stmt.wordedAll_of_dump inside inside' bodies, Clause.wordedAll_of_dump others others' later]

end

theorem Program.worded_of_dump {p q : Program} (lined : Lined p.spots) (lined' : Lined q.spots)
    (same : p.dump = q.dump) : p.worded = q.worded := by
  have fields := Json.object.inj same
  simp only [List.cons.injEq, Prod.mk.injEq, true_and, and_true, Json.array.injEq] at fields
  exact Stmt.wordedAll_of_dump lined lined' fields

end Identified

namespace Json

/-- The place that the fields of an object give. -/
def spot? (fields : List (String × Json)) : Option Pos :=
  match fields.lookup "line", fields.lookup "column" with
  | some (.natural line), some (.natural column) => some ⟨line, column⟩
  | _, _ => none

mutual

/-- The places of the objects, each before those of the objects in it. -/
def spots : Json → List (Option Pos)
  | .object fields => spot? fields :: spotsOf fields
  | .array items => spotsAll items
  | .null | .boolean _ | .number _ | .natural _ | .string _ => []

def spotsAll : List Json → List (Option Pos)
  | [] => []
  | item :: rest => item.spots ++ spotsAll rest

def spotsOf : List (String × Json) → List (Option Pos)
  | [] => []
  | (_, value) :: rest => value.spots ++ spotsOf rest

end

theorem spotsOf_append (fields more : List (String × Json)) :
    spotsOf (fields ++ more) = spotsOf fields ++ spotsOf more := by
  induction fields with
  | nil => rfl
  | cons field rest again =>
      obtain ⟨key, value⟩ := field
      rw [List.cons_append, spotsOf, again, spotsOf, List.append_assoc]

end Json

section Placed

theorem node_spots {type : String} {fields : List (String × Json)} {pos : Pos}
    (lined : pos.line ≠ 0) (line : fields.lookup "line" = none)
    (column : fields.lookup "column" = none) :
    (node type fields pos).spots = some pos :: Json.spotsOf fields := by
  have place : Json.spot? (("type", .string type) :: (fields ++ pos.dump)) = some pos := by
    rw [Json.spot?, List.lookup_cons, List.lookup_cons, List.lookup_append, List.lookup_append, line,
      column, Pos.dump_of_line lined]
    rfl
  have none : Json.spotsOf pos.dump = [] := by
    rw [Pos.dump_of_line lined]
    rfl
  rw [node, List.cons_append, Json.spots, place, Json.spotsOf, Json.spots, List.nil_append,
    Json.spotsOf_append, none, List.append_nil]

theorem Literal.spots_dump (value : Literal) : value.dump.spots = [] := by
  cases value <;> rfl

theorem nameNode_spots {pos : Pos} (lined : pos.line ≠ 0) (name : String) :
    (nameNode pos name).spots = [some pos] := node_spots lined rfl rfl

mutual

theorem Expr.spots_dump : ∀ {e : Expr}, Lined e.spots → e.dump.spots = e.spots.map some
  | .literal pos value, lined => by
      rw [Expr.dump, node_spots (lined_cons.mp lined).1 rfl rfl]
      simp only [Json.spotsOf, value.spots_dump, Expr.spots, List.map_cons, List.map_nil,
        List.append_nil]
  | .name pos text, lined => nameNode_spots (lined_cons.mp lined).1 text
  | .array pos items, lined => by
      obtain ⟨here, inside⟩ := lined_cons.mp lined
      rw [Expr.dump, node_spots here rfl rfl]
      simp only [Json.spotsOf, Json.spots, Expr.spotsAll_dump inside, Expr.spots, List.map_cons,
        List.append_nil]
  | .binary pos op left right, lined | .logical pos op left right, lined => by
      simp only [Expr.spots, lined_cons, lined_append] at lined
      obtain ⟨here, before, after⟩ := lined
      rw [Expr.dump, node_spots here rfl rfl]
      simp only [Json.spotsOf, Json.spots, left.spots_dump before, right.spots_dump after, Expr.spots,
        List.map_cons, List.map_append, List.append_nil, List.nil_append]
  | .unary pos op operand, lined => by
      obtain ⟨here, inside⟩ := lined_cons.mp lined
      rw [Expr.dump, node_spots here rfl rfl]
      simp only [Json.spotsOf, Json.spots, operand.spots_dump inside, Expr.spots, List.map_cons,
        List.append_nil, List.nil_append]
  | .member pos object text namePos, lined => by
      simp only [Expr.spots, lined_cons, lined_append] at lined
      obtain ⟨here, before, after, -⟩ := lined
      rw [Expr.dump, node_spots here rfl rfl]
      simp only [Json.spotsOf, Json.spots, object.spots_dump before, nameNode_spots after, Expr.spots,
        List.map_cons, List.map_append, List.map_nil, List.append_nil]
  | .index pos object position, lined => by
      simp only [Expr.spots, lined_cons, lined_append] at lined
      obtain ⟨here, before, after⟩ := lined
      rw [Expr.dump, node_spots here rfl rfl]
      simp only [Json.spotsOf, Json.spots, object.spots_dump before, position.spots_dump after,
        Expr.spots, List.map_cons, List.map_append, List.append_nil]
  | .call pos callee arguments, lined => by
      simp only [Expr.spots, lined_cons, lined_append] at lined
      obtain ⟨here, before, after⟩ := lined
      rw [Expr.dump, node_spots here rfl rfl]
      simp only [Json.spotsOf, Json.spots, callee.spots_dump before, Expr.spotsAll_dump after,
        Expr.spots, List.map_cons, List.map_append, List.append_nil]

theorem Expr.spotsAll_dump : ∀ {es : List Expr}, Lined (Expr.spotsAll es) →
    Json.spotsAll (Expr.dumpAll es) = (Expr.spotsAll es).map some
  | [], _ => rfl
  | e :: rest, lined => by
      obtain ⟨first, others⟩ := lined_append.mp lined
      rw [Expr.dumpAll, Json.spotsAll, e.spots_dump first, Expr.spotsAll_dump others, Expr.spotsAll,
        List.map_append]

end

theorem dumpOptional_spots {value? : Option Expr} (lined : Lined (optionalSpots value?)) :
    (dumpOptional value?).spots = (optionalSpots value?).map some := by
  cases value? with
  | none => rfl
  | some value => exact value.spots_dump lined

theorem Target.spots_dump {target : Target} (lined : Lined target.spots) :
    target.toExpr.dump.spots = target.spots.map some := by
  rw [← Target.spots_toExpr] at lined ⊢
  exact Expr.spots_dump lined

mutual

theorem Stmt.spots_dump : ∀ {s : Stmt}, Lined s.spots → s.dump.spots = s.spots.map some
  | .declare pos kind name value?, lined => by
      rw [Stmt.spots_declare, lined_cons] at lined
      rw [Stmt.dump, node_spots lined.1 rfl rfl, Stmt.spots_declare]
      simp only [Json.spotsOf, Json.spots, dumpOptional_spots lined.2, List.map_cons,
        List.append_nil, List.nil_append]
  | .assign pos target value, lined => by
      simp only [Stmt.spots, lined_cons, lined_append] at lined
      obtain ⟨here, before, after⟩ := lined
      rw [Stmt.dump, node_spots here rfl rfl]
      simp only [Json.spotsOf, target.spots_dump before, value.spots_dump after, Stmt.spots,
        List.map_cons, List.map_append, List.append_nil]
  | .expr pos value, lined => by
      obtain ⟨here, inside⟩ := lined_cons.mp lined
      rw [Stmt.dump, node_spots here rfl rfl]
      simp only [Json.spotsOf, value.spots_dump inside, Stmt.spots, List.map_cons, List.append_nil]
  | .block pos body, lined => by
      obtain ⟨here, inside⟩ := lined_cons.mp lined
      rw [Stmt.dump, node_spots here rfl rfl]
      simp only [Json.spotsOf, Json.spots, Stmt.spotsAll_dump inside, Stmt.spots, List.map_cons,
        List.append_nil]
  | .if pos test yes none, lined => by
      simp only [Stmt.spots, lined_cons, lined_append] at lined
      obtain ⟨here, before, after⟩ := lined
      rw [Stmt.dump, node_spots here rfl rfl]
      simp only [Json.spotsOf, Json.spots, test.spots_dump before, yes.spots_dump after, Stmt.spots,
        List.map_cons, List.map_append, List.append_nil]
  | .if pos test yes (some no), lined => by
      simp only [Stmt.spots, lined_cons, lined_append] at lined
      obtain ⟨here, before, after, last⟩ := lined
      rw [Stmt.dump, node_spots here rfl rfl]
      simp only [Json.spotsOf, test.spots_dump before, yes.spots_dump after, no.spots_dump last,
        Stmt.spots, List.map_cons, List.map_append, List.append_nil]
  | .while pos test body, lined => by
      simp only [Stmt.spots, lined_cons, lined_append] at lined
      obtain ⟨here, before, after⟩ := lined
      rw [Stmt.dump, node_spots here rfl rfl]
      simp only [Json.spotsOf, test.spots_dump before, body.spots_dump after, Stmt.spots,
        List.map_cons, List.map_append, List.append_nil]
  | .switch pos subject clauses, lined => by
      simp only [Stmt.spots, lined_cons, lined_append] at lined
      obtain ⟨here, before, after⟩ := lined
      rw [Stmt.dump, node_spots here rfl rfl]
      simp only [Json.spotsOf, Json.spots, subject.spots_dump before, Clause.spotsAll_dump after,
        Stmt.spots, List.map_cons, List.map_append, List.append_nil]
  | .break pos, lined => node_spots (lined_cons.mp lined).1 rfl rfl
  | .continue pos, lined => node_spots (lined_cons.mp lined).1 rfl rfl

theorem Stmt.spotsAll_dump : ∀ {body : List Stmt}, Lined (Stmt.spotsAll body) →
    Json.spotsAll (Stmt.dumpAll body) = (Stmt.spotsAll body).map some
  | [], _ => rfl
  | s :: rest, lined => by
      obtain ⟨first, others⟩ := lined_append.mp lined
      rw [Stmt.dumpAll, Json.spotsAll, s.spots_dump first, Stmt.spotsAll_dump others, Stmt.spotsAll,
        List.map_append]

theorem Clause.spotsAll_dump : ∀ {clauses : List Clause}, Lined (Clause.spotsAll clauses) →
    Json.spotsAll (Stmt.dumpClauses clauses) = (Clause.spotsAll clauses).map some
  | [], _ => rfl
  | .mk pos test? body :: rest, lined => by
      rw [Clause.spotsAll_cons] at lined ⊢
      simp only [lined_cons, lined_append] at lined
      obtain ⟨here, tested, inside, others⟩ := lined
      rw [Stmt.dumpClauses, Json.spotsAll, node_spots here rfl rfl]
      simp only [Json.spotsOf, Json.spots, dumpOptional_spots tested, Stmt.spotsAll_dump inside,
        Clause.spotsAll_dump others, List.map_cons, List.map_append, List.append_nil,
        List.cons_append, List.append_assoc]

end

/-- The program itself has no place, and all nodes below it have theirs. -/
theorem Program.spots_dump {p : Program} (lined : Lined p.spots) :
    p.dump.spots = none :: p.spots.map some := by
  have inside : Json.spotsAll (Stmt.dumpAll p) = p.spots.map some := Stmt.spotsAll_dump lined
  have place : Json.spot? [("type", .string "Program"),
      ("statements", .array (Stmt.dumpAll p))] = none := rfl
  simp only [Program.dump, Json.spots, place, Json.spotsOf, inside, List.append_nil,
    List.nil_append]

end Placed

/-- Programs that were read have the same dump exactly if they are the same, places included, but for
the literals `null` and `undefined` and the strings of those words; and every node of such a program
has its own place in the dump. -/
theorem Program.dump_identifies {source other : String} {p q : Program}
    (reads : Program.read source = .ok p) (readsOther : Program.read other = .ok q) :
    (p.dump = q.dump ↔ p.worded = q.worded) ∧ p.dump.spots = none :: p.spots.map some := by
  have lined := lines_of_read reads
  have linedOther := lines_of_read readsOther
  refine ⟨⟨Program.worded_of_dump lined linedOther, ?_⟩, Program.spots_dump lined⟩
  intro same
  have dumps : Program.dump (Program.worded p) = Program.dump (Program.worded q) := by rw [same]
  rwa [Program.dump_worded, Program.dump_worded] at dumps

theorem Program.read_of_literal {source : String} {t stop : Token} {value : Literal}
    (scanned : Token.scan source = ⟨[t, stop], none⟩) (denotes : Grammar.Denotes t.kind value)
    (stops : stop.kind = .endOfInput) :
    Program.read source = .ok [.expr t.pos (.literal t.pos value)] := by
  rw [Program.read_eq_ok_iff, scanned]
  have literal : Grammar.Primary [t] (.literal t.pos value) := .literal denotes
  have whole : Grammar.Expression [t] (.literal t.pos value) :=
    Grammar.Chained.mono (.postfixed (.primary literal)) (Nat.zero_le _)
  have statement : Grammar.Statement ⟨false, false⟩ [t] stop _ :=
    .unterminated (.expr whole) (.stop stops)
  exact ⟨rfl, .mk stops (@Grammar.Statements.cons _ [t] [] stop _ _ statement .nil)⟩

theorem scan_null : Token.scan "null" =
    ⟨[⟨.keyword .null, "null", ⟨1, 1⟩⟩, ⟨.endOfInput, "", ⟨1, 5⟩⟩], none⟩ := by
  have word : Lexeme.Reads ['n', 'u', 'l', 'l'] (.keyword .null) [] ['n', 'u', 'l', 'l'] := rfl
  show Token.scanFrom .start ['n', 'u', 'l', 'l'] = _
  rw [Token.scanFrom_lexeme .start rfl (by decide) word, Token.scanFrom_empty]
  rfl

theorem scan_quotedNull : Token.scan "\"null\"" =
    ⟨[⟨.string "null", "\"null\"", ⟨1, 1⟩⟩, ⟨.endOfInput, "", ⟨1, 7⟩⟩], none⟩ := by
  have text : Lexeme.Reads ['"', 'n', 'u', 'l', 'l', '"'] (.string "null") []
    ['"', 'n', 'u', 'l', 'l', '"'] := rfl
  show Token.scanFrom .start ['"', 'n', 'u', 'l', 'l', '"'] = _
  rw [Token.scanFrom_lexeme .start rfl (by decide) text, Token.scanFrom_empty]
  rfl

/-- The literal `null` and the string of that word are two programs with one dump. -/
theorem dump_identifies_null : ∃ p q, Program.read "null" = .ok p ∧
    Program.read "\"null\"" = .ok q ∧ p ≠ q ∧ p.dump = q.dump ∧
    p.dump.spots = [none, some ⟨1, 1⟩, some ⟨1, 1⟩] := by
  have reads := Program.read_of_literal scan_null .null rfl
  have quoted := Program.read_of_literal scan_quotedNull (.string "null") rfl
  obtain ⟨dumps, spots⟩ := Program.dump_identifies reads quoted
  exact ⟨_, _, reads, quoted, by simp, dumps.mpr rfl, spots⟩

end Script
