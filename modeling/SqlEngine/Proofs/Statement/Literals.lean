import SqlEngine.Proofs.Statement.Everywhere

/-!
# Statements — number literals

What is said of numbers may hold of all number literals of a statement, at any depth
(`Local.numbers`).

* `Statement.parse_numbers`: no number literal that is read is NaN.
-/

namespace SqlEngine

/-- The node is a number with the property, or no number. -/
def Node.Numbers (P : Float → Prop) : Node → Prop
  | .number x => P x
  | _         => True

/-- All number literals have the property. -/
def Local.numbers (P : Float → Prop) : Local :=
  ⟨fun e => ∀ n ∈ e.nodes, n.Numbers P, fun _ => True, fun _ => True⟩

/-- The number is not NaN. -/
def Number.IsNumber (x : Float) : Prop :=
  x.isNaN = false

namespace Read

variable {o : ParserOptions}

mutual

theorem operands_numbers (depth : Nat) (nested : Bool) (ts : Tokens) {nodes : List Node}
    {rest : ts.After} (h : operands o depth nested ts = .ok (nodes, rest)) :
    ∀ n ∈ nodes, n.Numbers Number.IsNumber := by
  obtain ⟨first, afterFirst, more, last, hfirst, hmore, rfl⟩ := operands_cases h
  have hlt := afterFirst.2
  exact List.forall_mem_append.2
    ⟨operand_numbers depth nested ts hfirst, following_numbers depth nested afterFirst.1 hmore⟩
termination_by (ts.length, 3)

theorem following_numbers (depth : Nat) (nested : Bool) (ts : Tokens) {nodes : List Node}
    {rest : ts.UpTo} (h : following o depth nested ts = .ok (nodes, rest)) :
    ∀ n ∈ nodes, n.Numbers Number.IsNumber := by
  rcases following_cases h with rfl | ⟨op, more, after, last, hlt, hmore, rfl⟩
  · exact List.forall_mem_nil _
  · exact List.forall_mem_cons.2 ⟨trivial, operands_numbers depth nested after hmore⟩
termination_by (ts.length, 0)

theorem operand_numbers (depth : Nat) (nested : Bool) (ts : Tokens) {nodes : List Node}
    {rest : ts.After} (h : operand o depth nested ts = .ok (nodes, rest)) :
    ∀ n ∈ nodes, n.Numbers Number.IsNumber := by
  rcases operand_cases h with hatom | ⟨r, args, after, last, hargs, rfl⟩
  · exact atom_numbers depth ts hatom
  · exact List.forall_mem_singleton.2 trivial
termination_by (ts.length, 2)

theorem atom_numbers (depth : Nat) (ts : Tokens) {nodes : List Node} (h : Atom o depth ts nodes) :
    ∀ n ∈ nodes, n.Numbers Number.IsNumber := by
  cases h with
  | @plain n hn =>
    refine List.forall_mem_singleton.2 ?_
    cases n with
    | number x =>
      rw [Node.isPlain, Bool.not_eq_true'] at hn
      exact hn
    | _ => trivial
  | select hlt hs => exact List.forall_mem_singleton.2 trivial
  | @group inside nodes rest hlt hnodes =>
    have hinner := operands_numbers (depth + 1) true inside hnodes
    exact List.forall_mem_append.2
      ⟨List.forall_mem_cons.2 ⟨trivial, hinner⟩, List.forall_mem_singleton.2 trivial⟩
termination_by (ts.length, 1)

end

theorem ensures_numbers (o : ParserOptions) : Ensures o (.numbers Number.IsNumber) where
  expression := by
    intro depth wildcard ts e rest h
    obtain ⟨nodes, source, offset, hnodes, rfl⟩ := expression_cases h
    exact operands_numbers depth false ts hnodes
  output := by
    intro depth ts e rest h
    obtain ⟨-, ⟨r, hnodes⟩ | ⟨nodes, last, hoperands, hnodes⟩⟩ := output_cases h
    · show ∀ n ∈ e.nodes, n.Numbers Number.IsNumber
      rw [hnodes]
      exact List.forall_mem_singleton.2 trivial
    · show ∀ n ∈ e.nodes, n.Numbers Number.IsNumber
      rw [hnodes]
      exact operands_numbers depth false ts hoperands
  call := fun _ _ => trivial
  select := fun _ => trivial

end Read

/-- **No number literal that is read is NaN.** -/
theorem Statement.parse_numbers {o : ParserOptions} {text : String} {s : Statement}
    (h : Statement.parse o text = .ok s) : s.Everywhere (.numbers Number.IsNumber) :=
  Statement.parse_everywhere (Read.ensures_numbers o) h

end SqlEngine
