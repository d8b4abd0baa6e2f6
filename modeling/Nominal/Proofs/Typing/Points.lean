import Nominal.Proofs.Ty.Reading
import Nominal.Proofs.Typing.Ends
import Nominal.Typing.Check

/-!
# The points of a check

While a tree is checked, the checker comes by one state after the other. `Stmt.Throughout` says that
something holds at all these points: it follows the check along the tree, and asks it of the state
in which each part starts and of the state in which each part ends, whether it succeeds or fails.
Where a part starts depends on how the parts before it ended, so it is read off their checks.

A point is what the checker sees there (`Point`): the frames, the classes, and the types of the
expressions that were just checked. `Point.Reaches` says which types can be come by from there, and
`Point.Coherent` that no two of them have the same name by accident.
-/

namespace Nominal

/-! ## What is seen at a point -/

/-- What the checker sees at some point: the frames from the current one outwards, the classes, and
the types of the expressions that were just checked. -/
structure Point where
  scope : Scope
  classes : ClassTable
  types : List Ty

/-- The types that can be come by: what the frames declare and what was just checked, the parts of
function types, and what classes offer. -/
inductive Point.Reaches (p : Point) : Ty → Prop
  | binding {f : Frame} {name : String} {b : Binding} (hf : f ∈ p.scope)
    (hb : f.bindings.find? name = some b) : Reaches p b.type.type
  | overload {f : Frame} {name : String} {o : Overload} (hf : f ∈ p.scope)
    (ho : o ∈ f.functions.get name) : Reaches p o.signature.type
  | named {f : Frame} {name : String} {type : Ty} (hf : f ∈ p.scope)
    (htype : f.types.find? name = some type) : Reaches p type
  | checked {type : Ty} (htype : type ∈ p.types) : Reaches p type
  | parameter {parameters : List (Slot Ty)} {result : Ty} {q : Slot Ty}
    (h : Reaches p (.function parameters result)) (hq : q ∈ parameters) : Reaches p q.type
  | result {parameters : List (Slot Ty)} {result : Ty}
    (h : Reaches p (.function parameters result)) : Reaches p result
  | field {c : ClassRef} {name : String} {m : Member} (h : Reaches p (.cls c))
    (hm : (p.classes.info c).members.find? name = some m) : Reaches p m.type.type
  | method {c : ClassRef} {name : String} {o : Overload} (h : Reaches p (.cls c))
    (ho : o ∈ (p.classes.info c).methods.get name) : Reaches p o.signature.type
  | construction {c : ClassRef} {q : Slot Ty} (h : Reaches p (.cls c))
    (hq : q ∈ (p.classes.info c).parameters) : Reaches p q.type
  /-- A function type that can be written with types that can be come by. -/
  | function {parameters : List (Slot Ty)} {result : Ty}
    (hparameters : ∀ q ∈ parameters, Reaches p q.type) (hresult : Reaches p result) :
    Reaches p (.function parameters result)

/-- Classes of the same name are the same class, and types that are assignable because their names
are the same have the same classes at the same places. -/
structure Point.Coherent (p : Point) : Prop where
  classes : ∀ c d : ClassRef, p.Reaches (.cls c) → p.Reaches (.cls d) → c.name = d.name → c = d
  types : ∀ a b : Ty, p.Reaches a → p.Reaches b → a.assignableTo b = true → a.Agrees b

namespace Context

/-- The surroundings of what is checked inside `frame`. -/
def inside (ctx : Context) (frame : Frame) : Context :=
  { ctx with outer := frame :: ctx.outer }

/-- What is seen in a state, with the types of what was just checked. -/
def point (ctx : Context) (s : CheckState) (types : List Ty) : Point :=
  ⟨s.frame :: ctx.outer, s.classes, types⟩

end Context

/-! ## Along a check -/

section

variable (I : Point → Prop) {α : Type}

/-- At the start of the check and at its end. When it succeeds, the types of what it checked are
seen as well. -/
def Check.AtEnds (c : Check α) (checked : α → List Ty) (ctx : Context) (s : CheckState)
    (types : List Ty) : Prop :=
  I (ctx.point s types) ∧
    c.Ends s (fun a t => I (ctx.point t (checked a ++ types))) (fun _ t => I (ctx.point t types))

/-- One level further in, unless the limit is reached. -/
def Context.Deeper (ctx : Context) (s : CheckState) (types : List Ty) (body : Context → Prop) :
    Prop :=
  I (ctx.point s types) ∧
    (ctx.depth < ctx.limit → body { ctx with depth := ctx.depth + 1 })

/-- Along the declarations of parameters; `enter` declares one and does what belongs to it. -/
def Parameter.Throughout (enter : Context → Parameter → Check α) :
    List Parameter → Context → CheckState → Prop
  | [], ctx, s => I (ctx.point s [])
  | p :: rest, ctx, s =>
    Check.AtEnds I (ctx.declareParameter p) (fun declared => [declared.2.type]) ctx s [] ∧
      ∀ a t, enter ctx p s = .ok a t → Parameter.Throughout enter rest ctx t

/-- Where the parameters of a function are declared. -/
def CheckState.atHead (s : CheckState) : CheckState :=
  { s with registry := s.registry.begin, frame := .empty }

/-- Where the body of a function is checked, given the frame of its parameters. -/
def CheckState.atBody (s : CheckState) (frame : Frame) : CheckState :=
  { s with frame, returned := false }

/-- Where the parameters of a class are declared. -/
def CheckState.atClass (s : CheckState) : CheckState :=
  { s with registry := s.registry.begin, frame := .empty, returned := false }

/-- Where a block is checked. -/
def CheckState.atBlock (s : CheckState) : CheckState :=
  { s with frame := .empty }

mutual

/-- Along the check of an expression, while the types of other expressions are at hand. -/
def Expr.Throughout : Expr → Context → CheckState → List Ty → Prop
  | ⟨form, span⟩, ctx, s, types =>
    Check.AtEnds I (form.check span ctx) (fun e => [e.type.type]) ctx s types ∧
      form.Throughout ctx s types

def ExprForm.Throughout : ExprForm → Context → CheckState → List Ty → Prop
  | .number _, _, _, _ => True
  | .text _, _, _, _ => True
  | .bool _, _, _, _ => True
  | .symbol _, _, _, _ => True
  | .member owner _ _, ctx, s, types => owner.Throughout ctx s types
  | .assign target value, ctx, s, types =>
    target.ThroughoutTarget ctx s types ∧
      ∀ place t, target.checkTarget ctx s = .ok place t →
        ctx.Deeper I t (place.2.type :: types) fun ctx =>
          value.Throughout ctx t (place.2.type :: types)
  | .binary left _ right, ctx, s, types =>
    left.Throughout ctx s types ∧
      ∀ l t, left.check ctx s = .ok l t →
        ctx.Deeper I t (l.type.type :: types) fun ctx =>
          right.Throughout ctx t (l.type.type :: types)
  | .unary _ operand, ctx, s, types =>
    ctx.Deeper I s types fun ctx => operand.Throughout ctx s types
  | .call callee arguments, ctx, s, types =>
    callee.ThroughoutCallee ctx s types fun t types => Expr.ThroughoutEach arguments ctx t types
  | .new _ arguments, ctx, s, types => Expr.ThroughoutEach arguments ctx s types
  | .lambda ⟨parameters, result?, ⟨body, _⟩⟩, ctx, s, _ =>
    Parameter.Throughout I Context.declareParameter parameters (ctx.inside s.frame) s.atHead ∧
      ∀ head t, ctx.functionHead parameters result? { s with registry := s.registry.begin } =
          .ok head t →
        Stmt.ThroughoutAll body
          ({ ctx with function? := some head.function }.inside t.frame) (t.atBody head.frame)
  | .group inner, ctx, s, types =>
    ctx.Deeper I s types fun ctx => inner.Throughout ctx s types

/-- Along the check of the place of an assignment. -/
def Expr.ThroughoutTarget : Expr → Context → CheckState → List Ty → Prop
  | ⟨.member owner _ _, _⟩, ctx, s, types => owner.Throughout ctx s types
  | _, _, _, _ => True

/-- Along the check of what a call calls, and then along that of its arguments. -/
def Expr.ThroughoutCallee : Expr → Context → CheckState → List Ty →
    (CheckState → List Ty → Prop) → Prop
  | ⟨.symbol _, _⟩, _, s, types, arguments => arguments s types
  | ⟨.member owner _ _, _⟩, ctx, s, types, arguments =>
    owner.Throughout ctx s types ∧
      ∀ o t, owner.check ctx s = .ok o t → arguments t (o.type.type :: types)
  | ⟨form, span⟩, ctx, s, types, arguments =>
    (Check.AtEnds I (form.check span ctx) (fun e => [e.type.type]) ctx s types ∧
      form.Throughout ctx s types) ∧
        ∀ callee t, form.check span ctx s = .ok callee t → arguments t (callee.type.type :: types)

/-- Along the checks of arguments. They are checked one after the other, whether each is for itself
or flows into a slot. -/
def Expr.ThroughoutEach : List Expr → Context → CheckState → List Ty → Prop
  | [], ctx, s, types => I (ctx.point s types)
  | e :: rest, ctx, s, types =>
    (ctx.Deeper I s types fun ctx => e.Throughout ctx s types) ∧
      ∀ a t, ctx.nested e.span e.check s = .ok a t →
        Expr.ThroughoutEach rest ctx t (a.type.type :: types)

/-- Along the check of a statement. -/
def Stmt.Throughout : Stmt → Context → CheckState → Prop
  | ⟨form, span⟩, ctx, s =>
    Check.AtEnds I (form.check span ctx) (fun _ => []) ctx s [] ∧ form.Throughout ctx s

def StmtForm.Throughout : StmtForm → Context → CheckState → Prop
  | .expression e, ctx, s => ctx.Deeper I s [] fun ctx => e.Throughout ctx s []
  | .varDecl _ _ _ none (some value), ctx, s =>
    ctx.Deeper I s [] fun ctx => value.Throughout ctx { s with registry := s.registry.begin } []
  | .varDecl name nameSpan mode (some t) (some value), ctx, s =>
    ∀ declared, Scope.resolveValue (s.frame :: ctx.outer) t = .ok declared →
      if declared.function?.isSome then
        ∀ id u, ctx.declareVariable name ⟨mode, declared⟩ nameSpan
            { s with registry := s.registry.begin } = .ok id u →
          ctx.Deeper I u [declared] fun ctx => value.Throughout ctx u [declared]
      else
        ctx.Deeper I s [declared] fun ctx =>
          value.Throughout ctx { s with registry := s.registry.begin } [declared]
  | .varDecl _ _ _ _ none, _, _ => True
  | .classDecl name _ parameters members, ctx, s =>
    Scope.findType? (s.frame :: ctx.outer) name = none →
      ∀ c t, Context.declareClass name s = .ok c t →
        let body := { ctx with function? := none, className? := some name }.inside t.frame
        Parameter.Throughout I (fun ctx => ctx.classParameter c) parameters body t.atClass ∧
          ∀ ids u, parameters.mapM (body.classParameter c) t.atClass = .ok ids u →
            Stmt.ThroughoutMembers members parameters c (body.inside u.frame) u.atBlock
  | .fnDecl name _ ⟨parameters, result?, ⟨body, _⟩⟩, ctx, s =>
    Parameter.Throughout I Context.declareParameter parameters (ctx.inside s.frame) s.atHead ∧
      ∀ head t, ctx.functionHead parameters result? { s with registry := s.registry.begin } =
          .ok head t →
        ∀ id u, Check.insertDeclaration name ⟨.val, head.function.type⟩ t = .ok id u →
          ∀ frame, t.frame.declareFunction name ⟨some id, head.function⟩ = some frame →
            Stmt.ThroughoutAll body
              ({ ctx with function? := some head.function }.inside frame) (u.atBody head.frame)
  | .ret (some value), ctx, s => ctx.Deeper I s [] fun ctx => value.Throughout ctx s []
  | .ret none, _, _ => True
  | .block ⟨body, _⟩, ctx, s => Stmt.ThroughoutAll body (ctx.inside s.frame) s.atBlock
  | .branch condition thenBody (some elseBody), ctx, s =>
    (ctx.Deeper I s [] fun ctx => condition.Throughout ctx s []) ∧
      ∀ c t, ctx.nested condition.span condition.check s = .ok c t →
        ((ctx.inside t.frame).Deeper I t.atBlock [] fun ctx => thenBody.Throughout ctx t.atBlock) ∧
          ∀ b u, (ctx.inNewFrame fun ctx => ctx.nested thenBody.span thenBody.check) t = .ok b u →
            (ctx.inside u.frame).Deeper I u.atBlock [] fun ctx => elseBody.Throughout ctx u.atBlock
  | .branch condition thenBody none, ctx, s =>
    (ctx.Deeper I s [] fun ctx => condition.Throughout ctx s []) ∧
      ∀ c t, ctx.nested condition.span condition.check s = .ok c t →
        (ctx.inside t.frame).Deeper I t.atBlock [] fun ctx => thenBody.Throughout ctx t.atBlock
  | .loop condition body, ctx, s =>
    (ctx.Deeper I s [] fun ctx => condition.Throughout ctx s []) ∧
      ∀ c t, ctx.nested condition.span condition.check s = .ok c t →
        (ctx.inside t.frame).Deeper I t.atBlock [] fun ctx => body.Throughout ctx t.atBlock
  | .print value, ctx, s => ctx.Deeper I s [] fun ctx => value.Throughout ctx s []

/-- Along the checks of statements, one after the other. -/
def Stmt.ThroughoutAll : List Stmt → Context → CheckState → Prop
  | [], ctx, s => I (ctx.point s [])
  | stmt :: rest, ctx, s =>
    (ctx.Deeper I s [] fun ctx => stmt.Throughout ctx s) ∧
      ∀ typed t, ctx.nested stmt.span stmt.check s = .ok typed t →
        Stmt.ThroughoutAll rest ctx t

/-- Along the checks of the members of the class `c`, each of which is entered into the class. -/
def Stmt.ThroughoutMembers : List Stmt → List Parameter → ClassRef → Context → CheckState → Prop
  | [], _, _, ctx, s => I (ctx.point s [])
  | member :: rest, parameters, c, ctx, s =>
    I (ctx.point s []) ∧
      ∀ a t, ctx.expectNoParameter parameters member s = .ok a t →
        (ctx.Deeper I t [] fun ctx => member.Throughout ctx t) ∧
          ∀ typed u, ctx.nested member.span member.check t = .ok typed u →
            ∀ b v, ctx.enterMember c member typed u = .ok b v →
              Stmt.ThroughoutMembers rest parameters c ctx v

end

end

end Nominal
