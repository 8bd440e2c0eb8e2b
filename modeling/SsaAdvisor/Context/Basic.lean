import SsaAdvisor.Constant.Basic
import SsaAdvisor.Context.Allocator
import SsaAdvisor.Hierarchy
import SsaAdvisor.Signature

/-!
# What is known about the program around a function

A context holds the methods of the program, the hierarchy of its types, and lists of callees whose
behaviour is known: those that allocate, that only read their arguments, that release them, and that
store them globally. It may also supply values of immutable global bindings.

Follows `AnalysisContext::new`, its queries and its `with` methods.
Spec guidance: `SPEC_FULL.md` §10.2.
-/

namespace SsaAdvisor

/-- Knowledge about the program around a function. -/
structure Context where
  hierarchy : Hierarchy
  methods : MethodTable
  allocators : NameMap Allocator
  /-- Callees that read their arguments and never retain them. -/
  safeReads : List String
  /-- Callees that release their argument. -/
  releases : List String
  /-- Callees that store an argument globally. -/
  globalStores : List String
  globalConstants : NameMap Constant

namespace Context

/-- What is known without further information. -/
def initial : Context where
  hierarchy := .builtin
  methods := .empty
  allocators := Allocator.builtin
  safeReads :=
    ["getindex", "length", "size", "sum", "prod", "maximum", "minimum", "first", "last", "isempty",
      "eltype", "ndims", "axes", "unsafe_load"]
  releases := ["free", "Libc.free", "release"]
  globalStores := ["setglobal!"]
  globalConstants := .empty

/-- Whether the callee only reads its arguments. -/
def isSafeRead (ctx : Context) (callee : String) : Bool := ctx.safeReads.contains callee

/-- Whether the callee releases its argument. -/
def isRelease (ctx : Context) (callee : String) : Bool := ctx.releases.contains callee

/-- Whether the callee stores an argument globally. -/
def isGlobalStore (ctx : Context) (callee : String) : Bool := ctx.globalStores.contains callee

/-- The allocator that the callee is. -/
def allocator? (ctx : Context) (callee : String) : Option Allocator := ctx.allocators.get? callee

/-- The known value of an immutable global binding. -/
def globalConstant? (ctx : Context) (symbol : String) : Option Constant :=
  ctx.globalConstants.get? symbol

/-- Add a callee that only reads its arguments. -/
def withSafeRead (ctx : Context) (callee : String) : Context :=
  { ctx with safeReads := callee :: ctx.safeReads }

/-- Add a callee that releases its argument. -/
def withRelease (ctx : Context) (callee : String) : Context :=
  { ctx with releases := callee :: ctx.releases }

/-- Add a callee that stores an argument globally. -/
def withGlobalStore (ctx : Context) (callee : String) : Context :=
  { ctx with globalStores := callee :: ctx.globalStores }

/-- Add an allocator, in place of one with the same name. -/
def withAllocator (ctx : Context) (callee : String) (allocator : Allocator) : Context :=
  { ctx with allocators := ctx.allocators.insert callee allocator }

/-- Supply the value of an immutable global binding, in place of an earlier one. -/
def withGlobalConstant (ctx : Context) (symbol : String) (value : Constant) : Context :=
  { ctx with globalConstants := ctx.globalConstants.insert symbol value }

/-- The callees that only read are the former ones and the one added. -/
theorem isSafeRead_withSafeRead (ctx : Context) (callee other : String) :
    (ctx.withSafeRead callee).isSafeRead other = (other == callee || ctx.isSafeRead other) :=
  List.contains_cons

/-- The releasing callees are the former ones and the one added. -/
theorem isRelease_withRelease (ctx : Context) (callee other : String) :
    (ctx.withRelease callee).isRelease other = (other == callee || ctx.isRelease other) :=
  List.contains_cons

/-- The globally storing callees are the former ones and the one added. -/
theorem isGlobalStore_withGlobalStore (ctx : Context) (callee other : String) :
    (ctx.withGlobalStore callee).isGlobalStore other =
      (other == callee || ctx.isGlobalStore other) :=
  List.contains_cons

/-- A supplied value is seen under its own symbol and under no other. -/
theorem globalConstant?_withGlobalConstant (ctx : Context) (symbol other : String)
    (value : Constant) :
    (ctx.withGlobalConstant symbol value).globalConstant? other =
      if other = symbol then some value else ctx.globalConstant? other :=
  NameMap.get?_insert _ _ _ _

end Context
end SsaAdvisor
