import RoleResolution.Proofs.Conversion.Reach
import RoleResolution.Proofs.Conversion.Walk

/-!
# The graph without closing edges

Taking the closing edges of the reported cycles out of a conversion graph opens every cycle: no kind
reaches itself any more. A kind that reaches itself must therefore do so through a closing edge, and
then it reaches all kinds of the reported cycle that the edge closes, and they reach it.
-/

namespace RoleResolution

variable {κ : Type} [DecidableEq κ] {K : KindSet κ}

namespace ConversionGraph

instance (cycles : List (List κ)) (source target : κ) : Decidable (Closes cycles source target) :=
  inferInstanceAs (Decidable (∃ cycle ∈ cycles, [source, target] <:+ cycle))

/-- The graph without the closing edges of cycles. -/
def opened (K : KindSet κ) (g : ConversionGraph κ) (cycles : List (List κ)) : ConversionGraph κ :=
  ⟨(K.all.zip g.edges).map fun entry ↦
    entry.2.filter fun target ↦ !decide (Closes cycles entry.1 target)⟩

variable {g : ConversionGraph κ} {cycles : List (List κ)}

/-- The graph without closing edges has as many sources. -/
theorem length_opened (hK : K.Lawful) (hg : g.edges.length = K.count) :
    (g.opened K cycles).edges.length = K.count := by
  simp [opened, hg, hK.counted]

/-- The edges of the graph without closing edges are the ones that close none of the cycles. -/
theorem edge_opened (hK : K.Lawful) (hg : g.edges.length = K.count) :
    (g.opened K cycles).Edge K = g.OpenEdge K cycles := by
  funext source target
  apply propext
  obtain ⟨direct, hd⟩ := targets_total hK hg source
  have ho : (g.opened K cycles).targets K source =
      .ok (direct.filter fun target ↦ !decide (Closes cycles source target)) := by
    unfold targets at hd ⊢
    split at hd
    · next found hf =>
      cases hd
      have hz : (K.all.zip g.edges)[K.index source]? = some (source, direct) :=
        List.getElem?_zip_eq_some.mpr ⟨hK.listed source, hf⟩
      simp [opened, hz]
    · cases hd
  unfold OpenEdge Edge
  rw [ho, hd]
  simp

/-- Where edges lead, open edges do, unless the way there goes through a closing edge. -/
theorem open_or_closes {source target : κ} (h : Relation.TransGen (g.Edge K) source target) :
    Relation.TransGen (g.OpenEdge K cycles) source target ∨
      ∃ front back, Closes cycles front back ∧
        Relation.ReflTransGen (g.Edge K) source front ∧
        Relation.ReflTransGen (g.Edge K) back target := by
  induction h with
  | @single target hedge =>
    by_cases hc : Closes cycles source target
    · exact .inr ⟨source, target, hc, .refl, .refl⟩
    · exact .inl (.single ⟨hedge, hc⟩)
  | @tail middle target before hedge ih =>
    rcases ih with hopen | ⟨front, back, hc, hfront, hback⟩
    · by_cases hc : Closes cycles middle target
      · exact .inr ⟨middle, target, hc, before.to_reflTransGen, .refl⟩
      · exact .inl (hopen.tail ⟨hedge, hc⟩)
    · exact .inr ⟨front, back, hc, hfront, hback.tail hedge⟩

/-- A kind that edges lead back to leads to all kinds of a reported cycle, and they to it. -/
theorem exists_cycle_of_transGen (hsound : ∀ cycle ∈ cycles, IsCycle (g.Edge K) cycle)
    (hfeedback : ∀ kind, ¬ Relation.TransGen (g.OpenEdge K cycles) kind kind) {kind : κ}
    (h : Relation.TransGen (g.Edge K) kind kind) :
    ∃ cycle ∈ cycles, cycle ≠ [] ∧ ∀ other ∈ cycle,
      Relation.TransGen (g.Edge K) kind other ∧ Relation.TransGen (g.Edge K) other kind := by
  obtain ⟨front, back, ⟨cycle, hc, hs⟩, hfront, hback⟩ :=
    (open_or_closes h).resolve_left (hfeedback kind)
  have hmf : front ∈ cycle := hs.mem List.mem_cons_self
  have hmb : back ∈ cycle := hs.mem (List.mem_cons_of_mem _ List.mem_cons_self)
  refine ⟨cycle, hc, List.ne_nil_of_mem hmf, fun other ho ↦ ⟨?_, ?_⟩⟩
  · exact .trans_right hfront ((hsound cycle hc).reaches hmf ho)
  · exact .trans_left ((hsound cycle hc).reaches ho hmb) hback

end ConversionGraph

namespace Registry

open ConversionGraph

/-- Without the closing edges of the cycles that are reported for a registry that was built, no kind
reaches itself. So nothing is reported exactly when no kind reaches itself, and a kind that does
reaches all kinds of some reported cycle and is reached by them. -/
theorem detectCycles_opens (hK : K.Lawful) {b : RegistryBuilder κ} {R : Registry K}
    (hb : (b.build K).1 = .ok R) :
    ∃ cycles, R.graph.detectCycles K = .ok cycles ∧
      (∀ kind, (R.graph.opened K cycles).canReach K kind kind = .ok false) ∧
      (cycles = [] ↔ ∀ kind, R.graph.canReach K kind kind = .ok false) ∧
      ∀ kind, R.graph.canReach K kind kind = .ok true →
        ∃ cycle ∈ cycles, cycle ≠ [] ∧ ∀ other ∈ cycle,
          R.graph.canReach K kind other = .ok true ∧
          R.graph.canReach K other kind = .ok true := by
  have hg := length_edges_of_build hb
  obtain ⟨cycles, hc, hfeedback⟩ := detectCycles_feedback hK hg
  have hsound := detectCycles_sound hK hg hc
  refine ⟨cycles, hc, ?_, ?_, ?_⟩
  · intro kind
    rw [not_canReach_iff hK (length_opened hK hg), edge_opened hK hg]
    exact hfeedback kind
  · simp only [not_canReach_iff hK hg]
    exact detectCycles_eq_nil_iff hK hg hc
  · simp only [canReach_iff hK hg]
    intro kind h
    exact exists_cycle_of_transGen hsound hfeedback h

end Registry

namespace Rank

/-- The lower three ranks are converted into each other, with a guest also into itself; so are the
upper two, and they lead to the lower ones. -/
def maze : RegistryBuilder Rank where
  definitions := [
    { RoleDefinition.ofKind guest with conversions := [never member, never guest] },
    { RoleDefinition.ofKind member with conversions := [always editor, always guest] },
    { RoleDefinition.ofKind editor with conversions := [always member, never member] },
    { RoleDefinition.ofKind admin with conversions := [always owner, always guest] },
    { RoleDefinition.ofKind owner with conversions := [always admin] }]

/-- Four closing edges open the maze. An editor reaches itself, and with it a reported cycle. -/
theorem maze_opened :
    ∃ (R : Registry kinds) (cycles : List (List Rank)), kinds.Lawful ∧
      (maze.build kinds).1 = .ok R ∧ R.graph.detectCycles kinds = .ok cycles ∧
      cycles = [[member, editor, member], [guest, member, guest], [guest, guest],
        [admin, owner, admin]] ∧
      (∀ kind, (R.graph.opened kinds cycles).canReach kinds kind kind = .ok false) ∧
      R.graph.canReach kinds editor editor = .ok true ∧
      ∃ cycle ∈ cycles, cycle ≠ [] ∧ ∀ other ∈ cycle,
        R.graph.canReach kinds editor other = .ok true ∧
        R.graph.canReach kinds other editor = .ok true := by
  let R : Registry kinds := ⟨maze.definitions⟩
  have hb : (maze.build kinds).1 = .ok R := rfl
  have heditor : R.graph.canReach kinds editor editor = .ok true := rfl
  obtain ⟨cycles, hc, hopened, -, hreach⟩ := Registry.detectCycles_opens lawful_kinds hb
  have hcycles : R.graph.detectCycles kinds = .ok [[member, editor, member],
      [guest, member, guest], [guest, guest], [admin, owner, admin]] := rfl
  exact ⟨R, cycles, lawful_kinds, hb, hc, Except.ok.inj (hc.symm.trans hcycles), hopened, heditor,
    hreach editor heditor⟩

end Rank
end RoleResolution
