import SqlEngine.Proofs.Resolution.Places
import SqlEngine.Proofs.Resolution.Typing
import SqlEngine.Proofs.Statement.Conditions

/-!
# Resolution — one condition in three statements

A DELETE and an UPDATE see the table that they change under its own name, and so does a SELECT from
the table without an alias.  A text that is their condition is therefore resolved to the same filter
in all three (`Table.condition`), or all fail with one error.

* `Statement.prepare_select`, `Statement.prepare_delete`, `Statement.prepare_update`: the three
  statements.
-/

namespace SqlEngine

variable {c : Catalog} {t : Table} {id d : Nat} {o : ParserOptions} {w f : String}

/-- The text as a condition on the rows of the table. -/
def Table.condition (c : Catalog) (o : ParserOptions) (t : Table) (f : String) :
    Except Error (Option Expr) := do
  Expr.resolveFilter c [t.scope] (some (← Expr.parse o false f))

/-- Assignments are resolved the same at another place. -/
theorem Assignment.mapM_resolve_moved (k : Nat) {list resolved : List Assignment}
    (h : list.mapM (Assignment.resolve c t) = .ok resolved) :
    (list.map (Assignment.moved k)).mapM (Assignment.resolve c t) =
      .ok (resolved.map (Assignment.moved k)) := by
  refine mapM_eq_ok_iff.2 (List.forall₂_map_left_iff.2 (List.forall₂_map_right_iff.2 ?_))
  refine (mapM_eq_ok_iff.1 h).imp fun a a' ha => ?_
  have hmoved := Assignment.resolve_moved (c := c) k t a
  rw [ha] at hmoved
  generalize (a.moved k).resolve c t = x at hmoved ⊢
  cases hmoved with
  | ok h => rw [h]

/-- A number as a resolved output. -/
def Expr.ofNumber (x : Float) (source : String) (offset : Nat) : Expr :=
  ⟨[.number x], .number, false, false, source, none, offset⟩

/-- The resolved SELECT of a number for each row of the table that the filter keeps. -/
def Select.Numbers (x : Float) (id : Nat) (t : Table) (filter : Option Expr) (s : Select) : Prop :=
  ∃ text source offset tableOffset start, s =
    ⟨text, false, [.ofNumber x source offset], some (.table t.name none (some id) tableOffset), [],
      filter, [], [], none, start⟩

/-- Only the condition of the SELECT has to be resolved. -/
theorem Select.resolve_ofNumber (ht : c.findTable? t.name = some (id, t)) (x : Float)
    (text source : String) (offset tableOffset start : Nat) (filter : Option Expr) :
    Select.resolve c [] ⟨text, false, [.ofNodes [.number x] source offset],
        some (.table t.name none none tableOffset), [], filter, [], [], none, start⟩ =
      (Expr.resolveFilter c [t.scope] filter).map fun filter =>
        ⟨text, false, [.ofNumber x source offset],
          some (.table t.name none (some id) tableOffset), [], filter, [], [], none, start⟩ := by
  have hnumber (scopes : List Scope) : Expr.resolveOutputs c scopes
      [.ofNodes [.number x] source offset] = .ok [.ofNumber x source offset] := by
    simp only [Expr.resolveOutputs, Expr.ofNodes, Expr.resolve, Node.resolveAll, Node.resolve,
      ok_bind]
    rfl
  have hsources (output : List Expr) : (Select.mk text false output
      (some (.table t.name none (some id) tableOffset)) [] filter [] [] none
      start).sources.map (Source.scopeSource c) = t.scope := by
    have hid := Catalog.getElem?_of_findTable? ht
    show [Source.scopeSource c (.table t.name none (some id) tableOffset)] = t.scope
    simp only [Source.scopeSource, Option.bind_some, hid]
    rfl
  have hjoins (output : List Expr) : (Select.mk text false output
      (some (.table t.name none (some id) tableOffset)) [] filter [] [] none
      start).joinFault? = none := rfl
  have hgroups (filter : Option Expr) : (Select.mk text false [.ofNumber x source offset]
      (some (.table t.name none (some id) tableOffset)) [] filter [] [] none
      start).groupFault? = none := rfl
  have hexpand (scope : Scope) :
      scope.expandAll [.ofNumber x source offset] = .ok [.ofNumber x source offset] := rfl
  simp only [Select.resolve, Source.resolveOption, Source.resolve, ht, ok_bind,
    Join.resolveSources, Join.resolveConditions, hnumber, hjoins, hsources, Expr.resolveAll,
    OrderKey.resolveAll, List.zipWith_nil_left, hgroups, hexpand]
  cases Expr.resolveFilter c [t.scope] filter <;> rfl

namespace Statement

section Prepare

variable (ht : c.findTable? t.name = some (id, t)) (hw : Tokens.Spells w t.name)
  (hf : Expr.Whole o f)

include ht hw hf

theorem prepare_delete :
    ∃ d, Apart d (fun filter s => ∃ text offset,
        s = .delete ⟨text, t.name, some id, Expr.movedOption d filter, offset⟩)
      (t.condition c o f) (prepare o c ("DELETE FROM " ++ w ++ " WHERE " ++ f)) := by
  obtain ⟨d, hparse⟩ := parse_delete hw hf
  refine ⟨d, hparse.bind ?_⟩
  rintro e _ ⟨text, offset, rfl⟩
  simp only [resolve, Delete.resolve, Catalog.expectNamed, ht, ok_bind, bind_assoc]
  refine (Expr.resolveFilter_moved d [t.scope] (some e)).bindRight ?_
  rintro filter _ rfl
  exact ⟨_, rfl, text, offset, rfl⟩

theorem prepare_select :
    ∃ d x, Apart d (fun filter s => ∃ q : Select, s = .select q ∧
        q.Numbers x id t (Expr.movedOption d filter))
      (t.condition c o f) (prepare o c ("SELECT 1 FROM " ++ w ++ " WHERE " ++ f)) := by
  obtain ⟨d, x, hparse⟩ := parse_select hw hf
  refine ⟨d, x, hparse.bind ?_⟩
  rintro e _ ⟨_, rfl, text, source, offset, tableOffset, start, rfl⟩
  simp only [resolve, Select.resolve_ofNumber ht]
  refine ((Expr.resolveFilter_moved d [t.scope] (some e)).mapRight
    (S := fun filter q => q.Numbers x id t (Expr.movedOption d filter)) ?_).bindRight ?_
  · rintro filter _ rfl
    exact ⟨text, source, offset, tableOffset, start, rfl⟩
  · exact fun filter q hq => ⟨_, rfl, q, rfl, hq⟩

theorem prepare_update {sets : String} {list resolved : List Assignment}
    (hsets : Assignment.Whole o sets f list)
    (hresolved : list.mapM (Assignment.resolve c t) = .ok resolved) :
    ∃ d k, Apart d (fun filter s => ∃ text offset, s = .update ⟨text, t.name, some id,
        resolved.map (Assignment.moved k), Expr.movedOption d filter, offset⟩)
      (t.condition c o f)
      (prepare o c ("UPDATE " ++ w ++ " SET " ++ sets ++ " WHERE " ++ f)) := by
  obtain ⟨d, k, hparse⟩ := parse_update hw hf hsets
  refine ⟨d, k, hparse.bind ?_⟩
  rintro e _ ⟨text, offset, rfl⟩
  simp only [resolve, Update.resolve, Catalog.expectNamed, ht,
    Assignment.mapM_resolve_moved k hresolved, ok_bind, bind_assoc]
  refine (Expr.resolveFilter_moved d [t.scope] (some e)).bindRight ?_
  rintro filter _ rfl
  exact ⟨_, rfl, text, offset, rfl⟩

end Prepare

end Statement

end SqlEngine
