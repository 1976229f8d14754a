import Script.Proofs.Grammar.Blame
import Script.Proofs.Tree.Sites

/-!
Where the statements of a program stand, as the grammar has it: each is derived within the loops and
switches that stand around it in the tree.
-/

namespace Script

namespace Grammar

/-- The statement is derived within the loops and switches around it. -/
def Sited (site : Site) : Prop := ∃ w next, Statement site.around.enclosing w next site.stmt

theorem Simple.sites {enclosing : Enclosing} {w : List Token} {s : Stmt}
    (whole : Simple enclosing w s) (around : Surroundings) : s.sites around = [⟨around, s⟩] := by
  cases whole <;> rfl

mutual

theorem Statement.sited : ∀ (around : Surroundings) {w : List Token} {next : Token} {s : Stmt},
    Statement around.enclosing w next s → ∀ site ∈ s.sites around, Sited site
  | around, _, _, _, derived@(.terminated whole _) => by
      intro site member
      rw [whole.sites, List.mem_singleton] at member
      exact member ▸ ⟨_, _, derived⟩
  | around, _, _, _, derived@(.unterminated whole _) => by
      intro site member
      rw [whole.sites, List.mem_singleton] at member
      exact member ▸ ⟨_, _, derived⟩
  | around, _, _, _, derived@(.empty _) => by
      intro site member
      rw [Stmt.sites, Stmt.sitesAll, List.mem_singleton] at member
      exact member ▸ ⟨_, _, derived⟩
  | around, _, _, _, derived@(.block _ inside _) => by
      intro site member
      rcases List.mem_cons.mp member with rfl | within
      · exact ⟨_, _, derived⟩
      · exact inside.sited around site within
  | around, _, _, _, derived@(.if _ _ branch _) => by
      intro site member
      rcases List.mem_cons.mp member with rfl | within
      · exact ⟨_, _, derived⟩
      · exact branch.sited around site within
  | around, _, _, _, derived@(.ifElse _ _ branch _ rest) => by
      intro site member
      rcases List.mem_cons.mp member with rfl | within
      · exact ⟨_, _, derived⟩
      · rcases List.mem_append.mp within with first | second
        · exact branch.sited around site first
        · exact rest.sited around site second
  | around, _, _, _, derived@(.while _ _ turn) => by
      intro site member
      rcases List.mem_cons.mp member with rfl | within
      · exact ⟨_, _, derived⟩
      · exact turn.sited around.inLoop site within
  | around, _, _, _, derived@(.switch _ _ _ inside _ _) => by
      intro site member
      rcases List.mem_cons.mp member with rfl | within
      · exact ⟨_, _, derived⟩
      · exact inside.sited around.inSwitch site within

theorem Statements.sited : ∀ (around : Surroundings) {w : List Token} {next : Token}
    {body : List Stmt}, Statements around.enclosing w next body →
    ∀ site ∈ Stmt.sitesAll around body, Sited site
  | _, _, _, _, .nil => nofun
  | around, _, _, _, @Statements.cons _ _ _ _ s _ first others => by
      intro site member
      rcases List.mem_append.mp member with here | later
      · exact first.sited around site here
      · exact others.sited (around.after s) site later

theorem Clauses.sited : ∀ (around : Surroundings) {w : List Token} {next : Token}
    {clauses : List Clause}, Clauses around.enclosing w next clauses →
    ∀ site ∈ Stmt.sitesIn around clauses, Sited site
  | _, _, _, _, .nil => nofun
  | around, _, _, _, .case _ _ _ inside others => by
      intro site member
      rcases List.mem_append.mp member with here | later
      · exact inside.sited around site here
      · exact others.sited around site later
  | around, _, _, _, .default _ _ inside others => by
      intro site member
      rcases List.mem_append.mp member with here | later
      · exact inside.sited around site here
      · exact others.sited around site later

end

theorem sitesAll_sited : ∀ (body : List Stmt) (around : Surroundings),
    (∀ s ∈ body, ∃ w next, Statement around.enclosing w next s) →
    ∀ site ∈ Stmt.sitesAll around body, Sited site
  | [], _, _ => nofun
  | s :: rest, around, derived => by
      intro site member
      rcases List.mem_append.mp member with here | later
      · obtain ⟨w, next, first⟩ := derived s List.mem_cons_self
        exact first.sited around site here
      · have others := fun t later => derived t (List.mem_cons_of_mem s later)
        exact sitesAll_sited rest (around.after s) others site later

/-- Each statement of a program is derived outside of loops and switches, also if the tokens have an
end of input before their end. -/
theorem program_derives (c : Cursor) (closed : c.Closed) {p : Program} (reads : program c = .ok p) :
    ∀ s ∈ p, ∃ w next, Statement ⟨false, false⟩ w next s := by
  rw [program] at reads
  split at reads
  · cases reads
    exact fun s member => absurd member List.not_mem_nil
  · obtain ⟨first, firstReads, reads⟩ := Parse.bind_eq_ok reads
    obtain ⟨more, moreReads, same⟩ := Parse.bind_eq_ok reads
    cases same
    have shorter := first.shorter
    obtain ⟨w, passes, derived⟩ := statement_reads _ c closed first firstReads
    have others := program_derives first.next (closed.passes passes) moreReads
    intro s member
    rcases List.mem_cons.mp member with rfl | later
    · exact ⟨w, _, derived⟩
    · exact others s later
termination_by c.remaining

end Grammar

namespace Program

variable {tokens : List Token} {p : Program}

theorem derives_of_ofTokens (parsed : Program.ofTokens tokens = .ok p) :
    ∀ s ∈ p, ∃ w next, Grammar.Statement ⟨false, false⟩ w next s := by
  unfold Program.ofTokens at parsed
  split at parsed
  · cases parsed
  · next c known =>
      split at parsed
      · next p' reads =>
          cases parsed
          exact Grammar.program_derives c (Cursor.ofTokens?_eq_some known).1 reads
      · cases parsed

theorem sited_of_ofTokens (parsed : Program.ofTokens tokens = .ok p) :
    ∀ site ∈ p.sites, Grammar.Sited site :=
  Grammar.sitesAll_sited p .outermost (derives_of_ofTokens parsed)

end Program

end Script
