import Embargo.Jvm.Type
import Embargo.SyntaxError

/-!
# Reading descriptors

`FieldType.read?` reads one field type from the front of a text and returns the rest. It takes
brackets for the dimensions, and then a letter of a base type or a class name between `L` and `;`.
The name may hold any character but `;`, and is not empty.

* `ReturnType.ofDescriptor` – the type with a descriptor.
* `FieldType.readMany` – a row of descriptors, as it stands between the parentheses of a method.
-/

namespace Embargo.Jvm

namespace FieldType

/-- The field type that a text begins with, and the rest. -/
def read? : Text → Option (FieldType × Text)
  | [] => none
  | '[' :: r => (read? r).map fun (t, rest) => (.array t, rest)
  | 'L' :: r =>
    match Text.cut ';' r with
    | some (name, rest) => if name = [] then none else some (.object name, rest)
    | none => none
  | c :: r => (BaseType.ofLetter? c).map fun b => (.base b, r)

/-- A type takes at least one character. -/
theorem length_lt_of_read? {t : FieldType} {s rest : Text} (h : read? s = some (t, rest)) :
    rest.length < s.length := by
  fun_induction read? s generalizing t with
  | case1 => simp at h
  | case2 r ih =>
    obtain ⟨⟨u, rest'⟩, hu, hp⟩ := Option.map_eq_some_iff.1 h
    obtain ⟨-, rfl⟩ := Prod.mk.inj hp
    exact Nat.lt_succ_of_lt (ih hu)
  | case3 => simp at h
  | case4 r name rest' hc hn =>
    obtain ⟨-, rfl⟩ := Prod.mk.inj (Option.some.inj h)
    obtain ⟨rfl, -⟩ := Text.cut_eq_some_iff.1 hc
    simp; omega
  | case5 => simp at h
  | case6 c r =>
    obtain ⟨b, -, hp⟩ := Option.map_eq_some_iff.1 h
    obtain ⟨-, rfl⟩ := Prod.mk.inj hp
    simp

/-- The types in a row of descriptors, and what follows the row. -/
def readMany (s : Text) : List FieldType × Text :=
  match h : read? s with
  | none => ([], s)
  | some (t, rest) =>
    have := length_lt_of_read? h
    let (ts, rest) := readMany rest
    (t :: ts, rest)
termination_by s.length

end FieldType

namespace ReturnType

/-- The return type that a text begins with, and the rest. -/
def read? : Text → Option (ReturnType × Text)
  | 'V' :: r => some (.void, r)
  | s => (FieldType.read? s).map fun (t, rest) => (.value t, rest)

/-- The type with a descriptor. -/
def ofDescriptor (s : Text) : Except SyntaxError ReturnType :=
  match read? s with
  | some (t, []) => .ok t
  | _ => .error (.typeDescriptor s)

end ReturnType

end Embargo.Jvm
