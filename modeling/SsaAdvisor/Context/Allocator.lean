import SsaAdvisor.NameMap

/-!
# Allocators

Callees that are known to allocate memory, with the kind of memory and the rule by which the size of
an allocation follows from the call.

Follows `AllocatorSpec` and `AllocatorRegistry::builtin`.
Spec guidance: `SPEC_FULL.md` §10.2.
-/

namespace SsaAdvisor

/-- What kind of memory an allocation produces. -/
inductive MemoryKind where
  | array
  | string
  | struct
  /-- Memory that the program releases itself. -/
  | manual
deriving DecidableEq, Repr

namespace MemoryKind

/-- The written form of a kind. -/
def text : MemoryKind → String
  | .array => "array"
  | .string => "string"
  | .struct => "struct"
  | .manual => "manual"

end MemoryKind

/-- How the size of an allocation in bytes follows from the call. -/
inductive SizeRule where
  /-- Always the same size. -/
  | fixed (bytes : Nat)
  /-- The product of the arguments from `firstDimension` on, times the size of an element; without a
  given element size, that of the result type's element type. -/
  | elements (elementBytes : Option Nat) (firstDimension : Nat)
  /-- The product of all arguments. -/
  | bytes
  /-- The total length of the arguments, all of them texts, in UTF-8. -/
  | stringLength
  /-- No rule. -/
  | unknown
deriving DecidableEq, Repr

/-- A callee that allocates. -/
structure Allocator where
  kind : MemoryKind
  size : SizeRule
deriving DecidableEq, Repr

namespace Allocator

/-- An array allocator whose arguments are all dimensions. -/
def array (elementBytes : Option Nat) : Allocator := ⟨.array, .elements elementBytes 0⟩

/-- An allocator of memory by the byte, to be released by the program. -/
def manual : Allocator := ⟨.manual, .bytes⟩

/-- The allocators known without being registered. -/
def builtin : NameMap Allocator :=
  let arrays := ["zeros", "ones", "rand", "Array", "Vector", "Matrix"]
  let copies := ["similar", "collect", "copy", "vcat", "hcat"]
  let manuals := ["malloc", "calloc", "Libc.malloc", "Libc.calloc", "allocate"]
  NameMap.empty.insertAll <|
    arrays.map (·, array none)
      ++ [("fill", ⟨.array, .elements none 1⟩)]
      ++ copies.map (·, ⟨.array, .unknown⟩)
      ++ [("string", ⟨.string, .stringLength⟩), ("repeat", ⟨.string, .unknown⟩),
        ("join", ⟨.string, .unknown⟩), ("Ref", ⟨.struct, .fixed 16⟩)]
      ++ manuals.map (·, manual)

end Allocator
end SsaAdvisor
