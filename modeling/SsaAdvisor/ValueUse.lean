import SsaAdvisor.Context.Basic
import SsaAdvisor.Func.Basic

/-!
# Uses of a value

What the statements behind a value's definition do with it. The answer depends on the kind of the
statement and, for calls, on what the context knows about the callee; release is asked first, then
global store, then safe read.

Follows `forward_uses`, `classify` and `reads_global`.
Spec guidance: `SPEC_FULL.md` §§4.1, 10.2.
-/

namespace SsaAdvisor

/-- What a statement does with a value that it reads. -/
inductive UseKind where
  | returned
  /-- Stored globally, or passed to a call together with something read from a global binding. -/
  | globalStore
  /-- Passed to a callee that may retain it. -/
  | unknownCall (callee : String)
  | safeRead
  | release
  | condition
deriving DecidableEq, Repr

namespace UseKind

/-- Whether the value may outlive the function through the use. -/
def isCapture : UseKind → Bool
  | .returned | .globalStore | .unknownCall _ => true
  | .safeRead | .release | .condition => false

end UseKind

/-- One use of a value. -/
structure ValueUse where
  /-- Position of the statement that uses the value. -/
  index : Nat
  kind : UseKind
deriving DecidableEq, Repr

namespace ValueUse

/-- The written form of a use. -/
def text (use : ValueUse) : String :=
  match use.kind with
  | .returned => s!"returned at #{use.index}"
  | .globalStore => s!"stored to global storage at #{use.index}"
  | .unknownCall callee => "passed to unknown callee '" ++ callee ++ s!"' at #{use.index}"
  | .safeRead => s!"read at #{use.index}"
  | .release => s!"already released at #{use.index}"
  | .condition => s!"used as a condition at #{use.index}"

end ValueUse

namespace Func

/-- Whether an operand names a value read from a global binding. Follows `reads_global`. -/
def readsGlobal (f : Func) (op : Operand) : Bool :=
  (op.asValue?.bind f.statement?).any fun s ↦ s matches .globalRead ..

/-- What a statement does with a value that it reads. Follows `classify`. -/
def useKind (f : Func) (ctx : Context) : Statement → UseKind
  | .ret _ => .returned
  | .branch .. => .condition
  | .call callee args _ =>
    if ctx.isRelease callee then .release
    else if ctx.isGlobalStore callee then .globalStore
    else if ctx.isSafeRead callee then .safeRead
    else if args.any f.readsGlobal then .globalStore
    else .unknownCall callee
  | .literal .. | .globalRead .. | .jump _ => .safeRead

/-- The uses of a value behind its definition, in order of statements. Follows `forward_uses`. -/
def forwardUses (f : Func) (ctx : Context) (value : Nat) : List ValueUse :=
  ((f.after value).filter fun (s, _) ↦ s.usesValue value).map fun (s, position) ↦
    ⟨position, f.useKind ctx s⟩

end Func
end SsaAdvisor
