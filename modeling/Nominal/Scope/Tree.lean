import Nominal.Scope.Chain

/-!
# Trees of frames

Frames that are numbered in the order of their creation. A frame is created either on its own or
inside an earlier one, so the frames around it form a chain.
-/

namespace Nominal

/-- A frame and the number of the frame around it. -/
structure ScopeNode where
  frame : Frame
  parent? : Option Nat

/-- Numbered frames. -/
structure ScopeTree where
  nodes : List ScopeNode

namespace ScopeTree

/-- The tree that has the root frame alone. -/
def root : ScopeTree :=
  ⟨[⟨.root, none⟩]⟩

/-- With a new, empty frame inside `parent?`, and the number of that frame. -/
def add (t : ScopeTree) (parent? : Option Nat) : Nat × ScopeTree :=
  (t.nodes.length, ⟨t.nodes ++ [⟨.empty, parent?⟩]⟩)

/-- The frame `i`. -/
def frame (t : ScopeTree) (i : Nat) : Frame :=
  (t.nodes[i]?.map ScopeNode.frame).getD .empty

/-- The number of the frame around frame `i`. -/
def parent? (t : ScopeTree) (i : Nat) : Option Nat :=
  t.nodes[i]?.bind ScopeNode.parent?

/-- Frame `i` and the frames around it. -/
def chain (t : ScopeTree) (i : Nat) : Scope :=
  match t.parent? i with
  | none => [t.frame i]
  | some p => if p < i then t.frame i :: t.chain p else [t.frame i]
termination_by i

/-- With frame `i` changed by `f`. -/
def update (t : ScopeTree) (i : Nat) (f : Frame → Frame) : ScopeTree :=
  ⟨t.nodes.modify i fun node => { node with frame := f node.frame }⟩

/-- With frame `i` changed by the declaration `f`, and whether it was accepted. -/
def declare (t : ScopeTree) (i : Nat) (f : Frame → Option Frame) : Bool × ScopeTree :=
  match f (t.frame i) with
  | some frame => (true, t.update i fun _ => frame)
  | none => (false, t)

end ScopeTree

end Nominal
