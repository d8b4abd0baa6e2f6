import Nominal.Proofs.Session.Coherent
import Nominal.Proofs.Typing.Returns.Trees

/-!
# Functions return what they have to

In every statement that a session returns, a function or lambda whose result is not `Nothing` returns
somewhere in its own body, all it returns is of the type of its result, and nothing is returned
outside of functions (`Session.checkEach_returns`). The programs before may have failed in any way,
since scopes stay honest (`Session.honest_checkStmt`).
-/

namespace Nominal

namespace Session

variable {s : Session}

theorem honest_new (limit : Nat) : Scope.Honest [(new limit).state.frame] := by
  refine ⟨rfl, ?_⟩
  intro name type htype
  have hentries : Frame.root.types.entries =
      [("Int", .int), ("Bool", .bool), ("String", .string), ("Nothing", .nothing)] := rfl
  rw [Scope.findType?_of_types_eq rfl] at htype
  have hfind : Frame.root.types.find? name = some type := by
    rw [Scope.findType?_cons] at htype
    split at htype
    · next found hfound => rwa [← Option.some.inj htype]
    · cases htype
  have hmem := Table.find?_eq_some.1 hfind
  rw [hentries] at hmem
  simp only [List.mem_cons, Prod.mk.injEq, List.not_mem_nil, or_false] at hmem
  rcases hmem with ⟨rfl, rfl⟩ | ⟨rfl, rfl⟩ | ⟨rfl, rfl⟩ | ⟨rfl, rfl⟩
  · exact fun h => absurd h (by decide)
  · exact fun h => absurd h (by decide)
  · exact fun h => absurd h (by decide)
  · exact fun _ => rfl

/-- A statement leaves the scope honest, and when it is returned, it is proper. -/
theorem honest_checkStmt (hs : Scope.Honest [s.state.frame]) (stmt : Stmt) :
    Scope.Honest [(s.checkStmt stmt).2.state.frame] ∧
      ∀ typed ∈ (s.checkStmt stmt).1, typed.Proper none := by
  have hstmt : (s.context.nested stmt.span stmt.check).Honestly [] (TypedStmt.Proper none) :=
    .nested fun ctx hctx => stmt.check_proper none (by simp) ctx hctx
  obtain ⟨typed, t, hrun, ht, hproper⟩ | ⟨d, t, hrun, ht⟩ := checkStmt_ends (hstmt s.state hs)
  · rw [hrun]
    refine ⟨ht, ?_⟩
    rintro _ ⟨⟩
    exact hproper
  · rw [hrun]
    exact ⟨ht, by simp⟩

theorem honest_checkAll (hs : Scope.Honest [s.state.frame]) (stmts : List Stmt) :
    Scope.Honest [(s.checkAll stmts).2.state.frame] ∧
      ∀ typed ∈ (s.checkAll stmts).1, typed.Proper none := by
  induction stmts generalizing s with
  | nil => exact ⟨hs, fun _ h => nomatch h⟩
  | cons stmt rest ih =>
    obtain ⟨hfirst, htyped⟩ := honest_checkStmt hs stmt
    obtain ⟨hrest, hlater⟩ := ih hfirst
    rw [checkAll_cons]
    refine ⟨hrest, List.forall_mem_append.2 ⟨?_, hlater⟩⟩
    exact fun typed h => htyped typed (Option.mem_toList.1 h)

theorem honest_checkEach (hs : Scope.Honest [s.state.frame]) (programs : List Block) :
    Scope.Honest [(s.checkEach programs).2.state.frame] ∧
      ∀ typed ∈ (s.checkEach programs).1, typed.Proper none := by
  induction programs generalizing s with
  | nil => exact ⟨hs, fun _ h => nomatch h⟩
  | cons program rest ih =>
    obtain ⟨hfirst, htyped⟩ := honest_checkAll hs program.body
    obtain ⟨hrest, hlater⟩ := ih hfirst
    exact ⟨hrest, List.forall_mem_append.2 ⟨htyped, hlater⟩⟩

/-- Nothing is returned outside of functions, and each body in a statement returns what it has to
and nothing else. -/
theorem checkEach_returns (limit : Nat) (programs : List Block) :
    ∀ stmt ∈ ((new limit).checkEach programs).1,
      stmt.returns = [] ∧ ∀ b ∈ stmt.bodies, b.Proper := by
  intro stmt hstmt
  obtain ⟨-, hproper⟩ := honest_checkEach (honest_new limit) programs
  obtain ⟨hbodies, hreturns⟩ := hproper stmt hstmt
  exact ⟨List.eq_nil_iff_forall_not_mem.2 hreturns, hbodies⟩

/-- Returns of a function, of a lambda in it, of a method of a class in it, and of a function that
returns nothing. What stands before it is refused: only the lambda returns, only the method returns,
and a return stands outside of all functions. -/
def nestedReturnsSource : String :=
  "fun lazy(): Int \x7b val f = fun(): Int \x7b return 1; \x7d; \x7d
   fun idle(): Int \x7b class A \x7b fun get(): Int \x7b return 1; \x7d \x7d \x7d
   return 1;
   fun outer(n: Int): Int \x7b
     class Box(val x: Int) \x7b fun get(): String \x7b while (true) return \"\"; \x7d \x7d
     val f = fun(): Bool \x7b \x7b return true; \x7d \x7d;
     fun stop() \x7b return; \x7d
     if (f()) \x7b stop(); \x7d else return n;
   \x7d"

theorem checkEach_returns_nestedReturns :
    ∃ program stmt, parseSource nestedReturnsSource = .ok program ∧
      ((new defaultNestingLimit).checkEach [program]).1 = [stmt] ∧
      stmt.bodies.map (fun b => (TypedStmt.allReturns b.stmts).length) = [1, 0, 1, 1, 1] ∧
      stmt.returns = [] ∧ ∀ b ∈ stmt.bodies, b.Proper := by
  have hbodies : ((parseSource nestedReturnsSource).toOption.map fun program =>
      ((new defaultNestingLimit).checkEach [program]).1.map fun stmt =>
        stmt.bodies.map fun b => (TypedStmt.allReturns b.stmts).length) =
      some [[1, 0, 1, 1, 1]] := by
    decide +kernel
  cases hparse : parseSource nestedReturnsSource with
  | error d =>
    rw [hparse] at hbodies
    cases hbodies
  | ok program =>
    rw [hparse] at hbodies
    obtain ⟨stmt, hstmts, hstmt⟩ := List.map_eq_singleton_iff.1 (Option.some.inj hbodies)
    have hmem : stmt ∈ ((new defaultNestingLimit).checkEach [program]).1 :=
      hstmts ▸ List.mem_singleton_self stmt
    exact ⟨program, stmt, rfl, hstmts, hstmt,
      checkEach_returns defaultNestingLimit [program] stmt hmem⟩

end Session

end Nominal
