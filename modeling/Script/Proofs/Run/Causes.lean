import Script.Execution

/-!
What causes the faults of operations. None of them is about a variable, and one about a member that
is not known is about one that a library does not have.
-/

namespace Script

/-- If the cause is an unknown name, it is that of a member that a library does not have. -/
def Fault.Bound (cause : Fault) : Prop :=
  cause.kind = .unboundIdentifier → ∃ l name, cause = .noMember l name ∧ l.member? name = none

theorem Fault.Bound.of_ne {cause : Fault}
    (other : decide (cause.kind = .unboundIdentifier) = false) : cause.Bound := fun same =>
  absurd same (of_decide_eq_false other)

def Fault.OfOperation : Fault → Prop
  | .unbound _ | .unboundTarget _ | .constant _ | .library _ | .redeclared _ => False
  | .noMember l name => l.member? name = none
  | _ => True

theorem Fault.OfOperation.bound {cause : Fault} (operation : cause.OfOperation) : cause.Bound := by
  cases cause with
  | noMember l name => exact fun _ => ⟨l, name, rfl, operation⟩
  | unbound | unboundTarget | constant | library | redeclared => exact operation.elim
  | _ => exact .of_ne rfl

variable {h : Heap} {cause : Fault}

theorem Fault.of_mapM {α β : Type} {f : α → Except Fault β} {as : List α}
    (fails : as.mapM f = .error cause) : ∃ a ∈ as, f a = .error cause := by
  induction as with
  | nil => cases fails
  | cons a rest again =>
      rw [List.mapM_cons] at fails
      cases first : f a with
      | error other =>
          rw [first] at fails
          cases fails
          exact ⟨a, List.mem_cons_self, first⟩
      | ok b =>
          rw [first] at fails
          cases others : rest.mapM f with
          | error other =>
              simp only [others, bind, Except.bind] at fails
              cases fails
              obtain ⟨a', later, wrong⟩ := again others
              exact ⟨a', List.mem_cons_of_mem a later, wrong⟩
          | ok bs =>
              simp only [others, bind, Except.bind] at fails
              cases fails

theorem Builtin.numbers_ofOperation {f : Builtin} {wanted : Nat} {arguments : List Value}
    (fails : f.numbers wanted arguments = .error cause) : cause.OfOperation := by
  unfold numbers at fails
  split at fails
  · obtain ⟨v, -, wrong⟩ := Fault.of_mapM fails
    split at wrong
    · cases wrong
    · cases wrong
      trivial
  · cases fails
    trivial

theorem Builtin.call_ofOperation {f : Builtin} {arguments : List Value}
    (fails : f.call h arguments = .error cause) : cause.OfOperation := by
  cases f with
  | log => cases fails
  | sqrt | pow =>
      simp only [call] at fails
      cases result : numbers _ _ arguments with
      | error cause' =>
          rw [result] at fails
          cases fails
          exact numbers_ofOperation result
      | ok xs =>
          rw [result] at fails
          simp only [bind, Except.bind] at fails
          split at fails <;> cases fails

theorem BinaryOp.onNumbers_ofOperation {op : BinaryOp} {x y : Number}
    (fails : op.onNumbers x y = .error (.fault cause)) : cause.OfOperation := by
  cases op with
  | div =>
      simp only [onNumbers] at fails
      split at fails
      · cases fails
        trivial
      · cases fails
  | rem =>
      simp only [onNumbers] at fails
      split at fails
      · cases fails
        trivial
      · split at fails <;> cases fails
  | add | sub | mul | lt | le | gt | ge | eq | ne | strictEq | strictNe => cases fails

theorem BinaryOp.apply_ofOperation {op : BinaryOp} {left right : Value}
    (fails : op.apply h left right = .error (.fault cause)) : cause.OfOperation := by
  have mismatch {op : BinaryOp} {left right : Value}
      (fails : op.mismatch left right = .error (.fault cause)) : cause.OfOperation := by
    cases fails
    trivial
  cases op with
  | add =>
      simp only [apply, plus] at fails
      split at fails
      · cases fails
      · cases fails
      · exact onNumbers_ofOperation fails
      · exact mismatch fails
  | sub | mul | div | rem =>
      simp only [apply, arithmetic] at fails
      split at fails
      · exact onNumbers_ofOperation fails
      · exact mismatch fails
  | lt | le | gt | ge =>
      simp only [apply, comparison] at fails
      split at fails
      · exact onNumbers_ofOperation fails
      · cases fails
      · exact mismatch fails
  | eq | ne | strictEq | strictNe => cases fails

theorem UnaryOp.apply_ofOperation {op : UnaryOp} {v : Value} (fails : op.apply v = .error cause) :
    cause.OfOperation := by
  cases op with
  | neg =>
      simp only [apply] at fails
      split at fails
      · cases fails
      · cases fails
        trivial
  | not | typeof => cases fails

namespace Value

theorem member_ofOperation {object : Value} {name : String}
    (fails : object.member h name = .error cause) : cause.OfOperation := by
  cases object with
  | library l =>
      simp only [member] at fails
      split at fails
      · cases fails
      · next missing =>
          cases fails
          exact missing
  | array | string =>
      simp only [member] at fails
      split at fails
      · cases fails
      · cases fails
        trivial
  | number | boolean | undefined | null | function =>
      cases fails
      trivial

theorem place_ofOperation {index : Value} (fails : index.place = .error cause) :
    cause.OfOperation := by
  cases index with
  | number x =>
      simp only [place] at fails
      split at fails
      · cases fails
      · cases fails
        trivial
  | string | boolean | undefined | null | array | function | library =>
      cases fails
      trivial

theorem item_ofOperation {object index : Value} (fails : object.item h index = .error cause) :
    cause.OfOperation := by
  cases object with
  | array | string =>
      simp only [item] at fails
      cases placed : index.place with
      | error cause' =>
          rw [placed] at fails
          cases fails
          exact place_ofOperation placed
      | ok n =>
          rw [placed] at fails
          simp only [bind, Except.bind] at fails
          split at fails
          · cases fails
          · cases fails
            trivial
  | number | boolean | undefined | null | function | library =>
      cases fails
      trivial

end Value

end Script
