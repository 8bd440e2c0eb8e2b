import SsaAdvisor.Func.Defect

/-!
# Building functions step by step

A builder appends statements and declares parameters, and hands back the operand that names what was
added. Targets of branches are usually unknown when the branch is appended; they are emitted with a
placeholder and set afterwards. A session is a list of steps, each with its reply.

Follows `FunctionBuilder`, from `param` to `patch_target` and `build`.
Spec guidance: `SPEC_FULL.md` §10.1.
-/

namespace SsaAdvisor

/-- A function under construction. -/
structure Builder where
  name : String
  parameterTypes : Array Ty
  body : Array Statement

namespace Builder

/-- A builder without parameters and statements. -/
def empty (name : String) : Builder := ⟨name, #[], #[]⟩

/-- Declare the next parameter and name it. -/
def param (b : Builder) (ty : Ty) : Operand × Builder :=
  (.argument (b.parameterTypes.size + 1), ⟨b.name, b.parameterTypes.push ty, b.body⟩)

/-- The position that the next statement gets. -/
def nextIndex (b : Builder) : Nat := b.body.size + 1

/-- Append a statement and return its position. -/
def push (b : Builder) (s : Statement) : Nat × Builder :=
  (b.nextIndex, ⟨b.name, b.parameterTypes, b.body.push s⟩)

/-- Append a statement that defines a value and name the value. -/
def define (b : Builder) (s : Statement) : Operand × Builder :=
  let (position, b) := b.push s
  (.value position, b)

/-- Append a literal of the constant's own type. -/
def constant (b : Builder) (c : Constant) : Operand × Builder :=
  b.define (.literal c c.runtimeType)

/-- Set the target of the branch or jump at a position; a failure changes nothing.
Follows `patch_target`. -/
def patchTarget (b : Builder) (position target : Nat) : Except Defect Builder :=
  let patched? := do
    if position = 0 then none
    let s ← b.body[position - 1]?
    s.withTarget? target
  match patched? with
  | some s => .ok ⟨b.name, b.parameterTypes, b.body.setIfInBounds (position - 1) s⟩
  | none => .error (.notAJump position)

/-- The function built so far, whether or not it is well formed. -/
def toFunc (b : Builder) : Func := ⟨b.name, b.parameterTypes.toList, b.body⟩

/-- The function built so far, if it is well formed. Follows `FunctionBuilder::build`. -/
def build (b : Builder) : Except Defect Func := b.toFunc.validate.map fun _ ↦ b.toFunc

/-- A step of a building session. -/
inductive Step where
  | param (ty : Ty)
  | literal (value : Constant) (ty : Ty)
  | constant (value : Constant)
  | global (symbol : String) (ty : Ty) (isImmutable : Bool)
  | call (callee : String) (args : List Operand) (resultType : Ty)
  | nextIndex
  | push (s : Statement)
  | branch (condition : Operand) (fallthroughIsTrue : Bool) (target : Nat)
  | jump (target : Nat)
  | ret (value : Option Operand)
  | patchTarget (position target : Nat)
  | build

/-- What a step answers. -/
inductive Reply where
  /-- The operand that names what was added. -/
  | operand (op : Operand)
  /-- The position of a statement. -/
  | index (position : Nat)
  /-- The outcome of setting a target. -/
  | patched (outcome : Except Defect Unit)
  /-- The outcome of building. -/
  | built (outcome : Except Defect Func)

private def replyOperand : Operand × Builder → Reply × Builder := fun (op, b) ↦ (.operand op, b)

private def replyIndex : Nat × Builder → Reply × Builder := fun (position, b) ↦ (.index position, b)

/-- Take one step. Building answers with the function built so far and goes on. -/
def step (b : Builder) : Step → Reply × Builder
  | .param ty => replyOperand (b.param ty)
  | .literal value ty => replyOperand (b.define (.literal value ty))
  | .constant value => replyOperand (b.constant value)
  | .global symbol ty isImmutable => replyOperand (b.define (.globalRead symbol ty isImmutable))
  | .call callee args resultType => replyOperand (b.define (.call callee args resultType))
  | .nextIndex => (.index b.nextIndex, b)
  | .push s => replyIndex (b.push s)
  | .branch condition fallthroughIsTrue target =>
    replyIndex (b.push (.branch condition fallthroughIsTrue target))
  | .jump target => replyIndex (b.push (.jump target))
  | .ret value => replyIndex (b.push (.ret value))
  | .patchTarget position target =>
    match b.patchTarget position target with
    | .ok b' => (.patched (.ok ()), b')
    | .error defect => (.patched (.error defect), b)
  | .build => (.built b.build, b)

/-- Take the steps of a session from left to right. -/
def run (b : Builder) : List Step → List Reply × Builder
  | [] => ([], b)
  | s :: steps =>
    let (reply, b) := b.step s
    let (replies, b) := b.run steps
    (reply :: replies, b)

end Builder
end SsaAdvisor
