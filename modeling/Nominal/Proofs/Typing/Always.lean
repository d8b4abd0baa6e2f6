import Nominal.Proofs.Typing.Parts
import Nominal.Proofs.Typing.Points

/-!
# All states of a check

`Stmt.Always` says that something holds of every state that the checker goes through while it checks
a statement: where each part starts and where it ends, whether it succeeds or fails, and on the way
through a declaration also where only the registry has what is declared, where a frame has it while
its value or its body is checked, and where a failure is about to be undone. So what transactions
have staged is seen, and what the frames and the classes have at a time. As with `Stmt.Throughout`,
where a part starts is read off the checks of the parts before it.

A state is seen together with the frames around its current frame.
-/

namespace Nominal

/-- Where a transaction starts. -/
def CheckState.staging (s : CheckState) : CheckState :=
  { s with registry := s.registry.begin }

section

variable (I : CheckState → Scope → Prop) {α : Type}

/-- Where the check starts and where it ends. -/
def Check.Around (c : Check α) (ctx : Context) (s : CheckState) : Prop :=
  I s ctx.outer ∧ c.Ends s (fun _ t => I t ctx.outer) (fun _ t => I t ctx.outer)

/-- Along a declaration in the current frame, which is entered into the registry first. -/
def Context.AlwaysDeclared (ctx : Context) (name : String) (type : Slot Ty) (declare : Check α)
    (s : CheckState) : Prop :=
  (Check.insertDeclaration name type).Around I ctx s ∧ declare.Around I ctx s

/-- One level further in, unless the limit is reached. -/
def Context.AlwaysDeeper (ctx : Context) (s : CheckState)
    (body : Context → CheckState → Prop) : Prop :=
  I s ctx.outer ∧ (ctx.depth < ctx.limit → body { ctx with depth := ctx.depth + 1 } s)

/-- Along the declarations of parameters; `enter` declares one and does what belongs to it. -/
def Parameter.Always (enter : Context → Parameter → Check α) :
    List Parameter → Context → CheckState → Prop
  | [], ctx, s => I s ctx.outer
  | p :: rest, ctx, s =>
    (∀ type, Scope.resolveValue (s.frame :: ctx.outer) p.type = .ok type →
      ctx.AlwaysDeclared I p.name ⟨p.mode, type⟩ (ctx.declareParameter p) s) ∧
        (enter ctx p).Around I ctx s ∧
          ∀ a t, enter ctx p s = .ok a t → Parameter.Always enter rest ctx t

mutual

/-- Along the check of an expression. -/
def Expr.Always : Expr → Context → CheckState → Prop
  | ⟨form, span⟩, ctx, s => (form.check span ctx).Around I ctx s ∧ form.Always ctx s

def ExprForm.Always : ExprForm → Context → CheckState → Prop
  | .number _, _, _ => True
  | .text _, _, _ => True
  | .bool _, _, _ => True
  | .symbol _, _, _ => True
  | .member owner _ _, ctx, s => owner.Always ctx s
  | .assign target value, ctx, s =>
    target.AlwaysTarget ctx s ∧
      ∀ place t, target.checkTarget ctx s = .ok place t →
        ctx.AlwaysDeeper I t fun ctx s => value.Always ctx s
  | .binary left _ right, ctx, s =>
    left.Always ctx s ∧
      ∀ l t, left.check ctx s = .ok l t → ctx.AlwaysDeeper I t fun ctx s => right.Always ctx s
  | .unary _ operand, ctx, s => ctx.AlwaysDeeper I s fun ctx s => operand.Always ctx s
  | .call callee arguments, ctx, s =>
    callee.AlwaysCallee ctx s fun t => Expr.AlwaysEach arguments ctx t
  | .new _ arguments, ctx, s => Expr.AlwaysEach arguments ctx s
  | .lambda ⟨parameters, result?, ⟨body, bodySpan⟩⟩, ctx, s =>
    (ctx.functionHead parameters result?).Around I ctx s.staging ∧
      Parameter.Always I Context.declareParameter parameters (ctx.inside s.frame) s.atHead ∧
        ∀ head t, ctx.functionHead parameters result? s.staging = .ok head t →
          (ctx.functionBody head none bodySpan (Stmt.checkAll body)).Around I ctx t ∧
            Stmt.AlwaysAll body
              ({ ctx with function? := some head.function }.inside t.frame) (t.atBody head.frame)
  | .group inner, ctx, s => ctx.AlwaysDeeper I s fun ctx s => inner.Always ctx s

/-- Along the check of the place of an assignment. -/
def Expr.AlwaysTarget : Expr → Context → CheckState → Prop
  | ⟨.member owner _ _, _⟩, ctx, s => owner.Always ctx s
  | _, _, _ => True

/-- Along the check of what a call calls, and then along that of its arguments. -/
def Expr.AlwaysCallee : Expr → Context → CheckState → (CheckState → Prop) → Prop
  | ⟨.symbol _, _⟩, _, s, arguments => arguments s
  | ⟨.member owner _ _, _⟩, ctx, s, arguments =>
    owner.Always ctx s ∧ ∀ o t, owner.check ctx s = .ok o t → arguments t
  | ⟨form, span⟩, ctx, s, arguments =>
    ((form.check span ctx).Around I ctx s ∧ form.Always ctx s) ∧
      ∀ callee t, form.check span ctx s = .ok callee t → arguments t

/-- Along the checks of arguments. They are checked one after the other, whether each is for itself
or flows into a slot. -/
def Expr.AlwaysEach : List Expr → Context → CheckState → Prop
  | [], ctx, s => I s ctx.outer
  | e :: rest, ctx, s =>
    (ctx.AlwaysDeeper I s fun ctx s => e.Always ctx s) ∧
      ∀ a t, ctx.nested e.span e.check s = .ok a t → Expr.AlwaysEach rest ctx t

/-- Along the check of a statement. -/
def Stmt.Always : Stmt → Context → CheckState → Prop
  | ⟨form, span⟩, ctx, s => (form.check span ctx).Around I ctx s ∧ form.Always ctx s

def StmtForm.Always : StmtForm → Context → CheckState → Prop
  | .expression e, ctx, s => ctx.AlwaysDeeper I s fun ctx s => e.Always ctx s
  | .varDecl name nameSpan mode none (some value), ctx, s =>
    (ctx.AlwaysDeeper I s.staging fun ctx s => value.Always ctx s) ∧
      ∀ v t, ctx.nested value.span value.check s.staging = .ok v t →
        v.type.type.hasValues = true → v.type.assignableTo ⟨mode, v.type.type⟩ = true →
          ctx.AlwaysDeclared I name ⟨mode, v.type.type⟩
            (ctx.declareVariable name ⟨mode, v.type.type⟩ nameSpan) t
  | .varDecl name nameSpan mode (some t) (some value), ctx, s =>
    ∀ declared, Scope.resolveValue (s.frame :: ctx.outer) t = .ok declared →
      if declared.function?.isSome then
        ctx.AlwaysDeclared I name ⟨mode, declared⟩
            (ctx.declareVariable name ⟨mode, declared⟩ nameSpan) s.staging ∧
          ∀ id u, ctx.declareVariable name ⟨mode, declared⟩ nameSpan s.staging = .ok id u →
            (Check.undoing (fun frame => frame.removeVariable name) (Context.valueInto
                (ctx.nested value.span value.check) ⟨mode, declared⟩ value.span)).Around I ctx u ∧
              ctx.AlwaysDeeper I u fun ctx s => value.Always ctx s
      else
        (ctx.AlwaysDeeper I s.staging fun ctx s => value.Always ctx s) ∧
          ∀ v u, ctx.nested value.span value.check s.staging = .ok v u →
            v.type.assignableTo ⟨mode, declared⟩ = true →
              ctx.AlwaysDeclared I name ⟨mode, declared⟩
                (ctx.declareVariable name ⟨mode, declared⟩ nameSpan) u
  | .varDecl name nameSpan mode (some t) none, ctx, s =>
    mode = .var → ∀ declared, Scope.resolveValue (s.frame :: ctx.outer) t = .ok declared →
      ctx.AlwaysDeclared I name ⟨mode, declared⟩
        (ctx.declareVariable name ⟨mode, declared⟩ nameSpan) s.staging
  | .varDecl _ _ mode none none, ctx, s =>
    mode = .var → I s.staging ctx.outer
  | .classDecl name _ parameters members, ctx, s =>
    Scope.findType? (s.frame :: ctx.outer) name = none →
      (Context.declareClass name).Around I ctx s ∧
        ∀ c t, Context.declareClass name s = .ok c t →
          let around := { ctx with function? := none, className? := some name }
          let body := around.inside t.frame
          (around.classBody c parameters (Stmt.checkMembers members parameters c)).Around I around
              { t.staging with returned := false } ∧
            Parameter.Always I (fun ctx => ctx.classParameter c) parameters body t.atClass ∧
              ∀ ids u, parameters.mapM (body.classParameter c) t.atClass = .ok ids u →
                Stmt.AlwaysMembers members parameters c (body.inside u.frame) u.atBlock
  | .fnDecl name _ ⟨parameters, result?, ⟨body, bodySpan⟩⟩, ctx, s =>
    (ctx.functionHead parameters result?).Around I ctx s.staging ∧
      Parameter.Always I Context.declareParameter parameters (ctx.inside s.frame) s.atHead ∧
        ∀ head t, ctx.functionHead parameters result? s.staging = .ok head t →
          (Check.insertDeclaration name ⟨.val, head.function.type⟩).Around I ctx t ∧
            ∀ id u, Check.insertDeclaration name ⟨.val, head.function.type⟩ t = .ok id u →
              ∀ frame, t.frame.declareFunction name ⟨some id, head.function⟩ = some frame →
                (ctx.functionBody head (some name) bodySpan (Stmt.checkAll body)).Around I ctx
                    { u with frame } ∧
                  (Check.undoing (fun frame => frame.removeFunction name id) (ctx.functionBody head
                      (some name) bodySpan (Stmt.checkAll body))).Around I ctx { u with frame } ∧
                    Stmt.AlwaysAll body
                      ({ ctx with function? := some head.function }.inside frame)
                      (u.atBody head.frame)
  | .ret (some value), ctx, s => ctx.AlwaysDeeper I s fun ctx s => value.Always ctx s
  | .ret none, _, _ => True
  | .block ⟨body, _⟩, ctx, s => Stmt.AlwaysAll body (ctx.inside s.frame) s.atBlock
  | .branch condition thenBody (some elseBody), ctx, s =>
    (ctx.AlwaysDeeper I s fun ctx s => condition.Always ctx s) ∧
      ∀ c t, ctx.nested condition.span condition.check s = .ok c t →
        ((ctx.inside t.frame).AlwaysDeeper I t.atBlock fun ctx s => thenBody.Always ctx s) ∧
          ∀ b u, (ctx.inNewFrame fun ctx => ctx.nested thenBody.span thenBody.check) t = .ok b u →
            (ctx.inside u.frame).AlwaysDeeper I u.atBlock fun ctx s => elseBody.Always ctx s
  | .branch condition thenBody none, ctx, s =>
    (ctx.AlwaysDeeper I s fun ctx s => condition.Always ctx s) ∧
      ∀ c t, ctx.nested condition.span condition.check s = .ok c t →
        (ctx.inside t.frame).AlwaysDeeper I t.atBlock fun ctx s => thenBody.Always ctx s
  | .loop condition body, ctx, s =>
    (ctx.AlwaysDeeper I s fun ctx s => condition.Always ctx s) ∧
      ∀ c t, ctx.nested condition.span condition.check s = .ok c t →
        (ctx.inside t.frame).AlwaysDeeper I t.atBlock fun ctx s => body.Always ctx s
  | .print value, ctx, s => ctx.AlwaysDeeper I s fun ctx s => value.Always ctx s

/-- Along the checks of statements, one after the other. -/
def Stmt.AlwaysAll : List Stmt → Context → CheckState → Prop
  | [], ctx, s => I s ctx.outer
  | stmt :: rest, ctx, s =>
    (ctx.AlwaysDeeper I s fun ctx s => stmt.Always ctx s) ∧
      ∀ typed t, ctx.nested stmt.span stmt.check s = .ok typed t → Stmt.AlwaysAll rest ctx t

/-- Along the checks of the members of the class `c`, each of which is entered into the class. -/
def Stmt.AlwaysMembers : List Stmt → List Parameter → ClassRef → Context → CheckState → Prop
  | [], _, _, ctx, s => I s ctx.outer
  | member :: rest, parameters, c, ctx, s =>
    I s ctx.outer ∧
      ∀ a t, ctx.expectNoParameter parameters member s = .ok a t →
        (ctx.AlwaysDeeper I t fun ctx s => member.Always ctx s) ∧
          ∀ typed u, ctx.nested member.span member.check t = .ok typed u →
            (ctx.enterMember c member typed).Around I ctx u ∧
              ∀ b v, ctx.enterMember c member typed u = .ok b v →
                Stmt.AlwaysMembers rest parameters c ctx v

end

end

end Nominal
