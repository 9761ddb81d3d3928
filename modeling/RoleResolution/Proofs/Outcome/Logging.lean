import RoleResolution.Proofs.Search.Tracing

/-!
# What a check reports

A check is logged when the configuration or the definition of the required or the provided kind
asks for it. A logged check that ends in a resolution reports it in one event at info level. No
other check reports anything at that level, and neither does a logged one that fails.
-/

namespace RoleResolution

variable {κ : Type}

namespace Session

/-- The events at info level, in order. -/
def infos (s : Session κ) : List (Event κ) := s.events.filter (·.level = .info)

/-- What traces reports nothing at info level. -/
theorem TracesTo.infos_eq {s s' : Session κ} (h : s.TracesTo s') : s'.infos = s.infos := by
  obtain ⟨added, he, hadded⟩ := h
  have hnone : added.filter (·.level = .info) = [] := by
    refine List.filter_eq_nil_iff.mpr fun e hmem ↦ ?_
    rw [hadded e hmem]
    decide
  unfold infos
  rw [he, List.filter_append, hnone, List.append_nil]

/-- An event at info level is reported after the earlier ones. -/
theorem infos_report {e : Event κ} (s : Session κ) (h : e.level = .info) :
    (s.report e).infos = s.infos ++ [e] := by
  simp [infos, report, h]

/-- An event at another level changes nothing at info level. -/
theorem infos_report_of_ne {e : Event κ} (s : Session κ) (h : e.level ≠ .info) :
    (s.report e).infos = s.infos := by
  simp [infos, report, h]

end Session

namespace Resolver

variable {K : KindSet κ} {r : Resolver K} {required provided : κ}

/-- Checks between two kinds are logged: the configuration asks for it, or the definition of one of
the kinds does. -/
def Logged (r : Resolver K) (required provided : κ) : Prop :=
  r.config.traceAllKinds = true ∨ ∃ kind d, (kind = required ∨ kind = provided) ∧
    r.registry.lookup kind = .ok d ∧ d.logging = true

/-- The resolver finds out which checks are logged. -/
theorem logsCheck_iff (hR : r.registry.Complete) :
    r.logsCheck required provided = .ok true ↔ r.Logged required provided := by
  obtain ⟨d, hd, -⟩ := hR required
  obtain ⟨e, he, -⟩ := hR provided
  by_cases hall : r.config.traceAllKinds = true
  · have hyes : r.logsCheck required provided = .ok true := by
      simp [logsCheck, logs, hall, bind, Except.bind, pure, Except.pure]
    exact iff_of_true hyes (.inl hall)
  · have hcheck : r.logsCheck required provided = .ok (d.logging || e.logging) := by
      cases hl : d.logging <;>
        simp [logsCheck, logs, hall, hd, he, hl, Except.map, bind, Except.bind, pure, Except.pure]
    rw [hcheck]
    simp [Logged, hall, hd, he]

variable [DecidableEq κ]

/-- What a check reports at info level, by its outcome. -/
structure Announces (r : Resolver K) (required provided : Role κ)
    (outcome : Except (Failure (CycleError κ)) (Resolution κ)) (infos : List (Event κ)) :
    Prop where
  /-- A logged check reports its resolution, and nothing else. -/
  resolved : r.Logged required.kind provided.kind → ∀ resolution, outcome = .ok resolution →
    infos = [.roleChecked required provided resolution.rule resolution.hops]
  /-- A check that is not logged reports nothing. -/
  unlogged : ¬ r.Logged required.kind provided.kind → infos = []
  /-- A check that fails reports nothing. -/
  failed : ∀ failure, outcome = .error failure → infos = []

/-- A check makes its report after the earlier events. -/
theorem resolveIn_announces (hR : r.registry.Complete) (required provided : Role κ)
    (s : Session κ) :
    ∃ infos, (r.resolveIn required provided s).2.infos = s.infos ++ infos ∧
      r.Announces required provided (r.resolveIn required provided s).1 infos := by
  obtain ⟨full, hfull⟩ := logsCheck_total hR required.kind provided.kind
  have hlogged : r.logsCheck required.kind provided.kind = .ok true ↔
      r.Logged required.kind provided.kind := logsCheck_iff hR
  have hsearch := (search_traces r.registry required provided s).infos_eq
  unfold resolveIn
  generalize search r.registry required provided s = searched at hsearch ⊢
  obtain ⟨failure | found, s₁⟩ := searched
  · refine ⟨[], hsearch.trans (List.append_nil _).symm, ?_⟩
    exact { resolved := nofun, unlogged := fun _ ↦ rfl, failed := fun _ _ ↦ rfl }
  · dsimp only
    rw [hfull] at hlogged ⊢
    rw [← hsearch]
    cases full with
    | true =>
      have hyes : r.Logged required.kind provided.kind := hlogged.mp rfl
      refine ⟨_, s₁.infos_report rfl, ?_⟩
      exact {
        resolved := fun _ resolution h ↦ by cases h; rfl
        unlogged := fun hno ↦ absurd hyes hno
        failed := nofun }
    | false =>
      have hno : ¬ r.Logged required.kind provided.kind := fun h ↦ nomatch hlogged.mpr h
      refine ⟨[], (s₁.infos_report_of_ne (by nofun)).trans (List.append_nil _).symm, ?_⟩
      exact { resolved := fun h ↦ absurd h hno, unlogged := fun _ ↦ rfl, failed := nofun }

/-- Over a registry that was built, a check with any tracker reports its resolution in exactly one
event at info level, if the check is logged, and nothing at that level otherwise. A check that fails
reports nothing at that level, logged or not. It makes no difference whether a caller asks for the
resolution or only whether the role satisfies, with a tracker of its own or a fresh one. -/
theorem resolveWith_announces (hK : K.Lawful) {b : RegistryBuilder κ} {r : Resolver K}
    (hb : (b.build K).1 = .ok r.registry) (required provided : Role κ) :
    (∀ t, r.Announces required provided (r.resolveWith required provided t).1
      (r.resolveWith required provided t).2.infos) ∧
    (∀ t, r.satisfiesWith required provided t =
      ((r.resolveWith required provided t).1.map Resolution.isSatisfied,
        (r.resolveWith required provided t).2)) ∧
    r.Announces required provided (r.resolve required provided).1
      (r.resolve required provided).2.infos ∧
    r.satisfies required provided =
      ((r.resolve required provided).1.map Resolution.isSatisfied,
        (r.resolve required provided).2) := by
  have hR := Registry.complete_of_build hK hb
  have hwith : ∀ t, r.Announces required provided (r.resolveWith required provided t).1
      (r.resolveWith required provided t).2.infos := by
    intro t
    obtain ⟨infos, hinfos, hannounces⟩ := resolveIn_announces hR required provided ⟨t, [], []⟩
    rw [resolveWith, hinfos]
    exact hannounces
  have hsatisfies : ∀ t, r.satisfiesWith required provided t =
      ((r.resolveWith required provided t).1.map Resolution.isSatisfied,
        (r.resolveWith required provided t).2) :=
    fun t ↦ satisfiesIn_eq r required provided ⟨t, [], []⟩
  exact ⟨hwith, hsatisfies, hwith {}, hsatisfies {}⟩

end Resolver

namespace Rank

/-- The checks of editors are logged. Editors are converted into themselves and admins into editors,
and members are converted into guests. -/
def watched : RegistryBuilder Rank where
  definitions := [
    RoleDefinition.ofKind guest,
    { RoleDefinition.ofKind member with conversions := [always guest] },
    { RoleDefinition.ofKind editor with conversions := [always editor], logging := true },
    { RoleDefinition.ofKind admin with conversions := [always editor] },
    RoleDefinition.ofKind owner]

/-- The resolver of the watched ranks. -/
def watch : Resolver kinds where
  registry := ⟨watched.definitions⟩

/-- The check whether an admin is an editor is logged, and it reports the grant. The one whether a
member is a guest is not, and it reports nothing. -/
theorem editors_watched :
    kinds.Lawful ∧ (watched.build kinds).1 = .ok watch.registry ∧
      watch.Logged editor admin ∧
      (watch.resolve (.unit editor) (.unit admin)).1 = .ok (.granted .identity [editor]) ∧
      (watch.resolve (.unit editor) (.unit admin)).2.infos =
        [.roleChecked (.unit editor) (.unit admin) (some .identity) 1] ∧
      ¬ watch.Logged guest member ∧
      (watch.resolve (.unit guest) (.unit member)).1 = .ok (.granted .identity [guest]) ∧
      (watch.resolve (.unit guest) (.unit member)).2.infos = [] := by
  have hb : (watched.build kinds).1 = .ok watch.registry := rfl
  have hlogged : watch.Logged editor admin := .inr ⟨editor, _, .inl rfl, rfl, rfl⟩
  have hunlogged : ¬ watch.Logged guest member := by
    rintro (hall | ⟨kind, d, rfl | rfl, hd, hl⟩)
    · cases hall
    · cases hd
      cases hl
    · cases hd
      cases hl
  have hgranted : (watch.resolve (.unit editor) (.unit admin)).1 =
      .ok (.granted .identity [editor]) := rfl
  obtain ⟨-, -, heditor, -⟩ :=
    Resolver.resolveWith_announces lawful_kinds hb (.unit editor) (.unit admin)
  obtain ⟨-, -, hguest, -⟩ :=
    Resolver.resolveWith_announces lawful_kinds hb (.unit guest) (.unit member)
  exact ⟨lawful_kinds, hb, hlogged, hgranted, heditor.resolved hlogged _ hgranted, hunlogged, rfl,
    hguest.unlogged hunlogged⟩

/-- The check whether an editor is a guest is logged, but it runs into a cycle and reports nothing
at info level. -/
theorem editor_unreported :
    kinds.Lawful ∧ (watched.build kinds).1 = .ok watch.registry ∧
      watch.Logged guest editor ∧
      (watch.resolve (.unit guest) (.unit editor)).1 =
        .error (.error ⟨editor, [editor, editor]⟩) ∧
      ¬ ∃ e, (watch.resolve (.unit guest) (.unit editor)).2.infos = [e] := by
  have hinfos : (watch.resolve (.unit guest) (.unit editor)).2.infos = [] := rfl
  refine ⟨lawful_kinds, rfl, .inr ⟨editor, _, .inr rfl, rfl, rfl⟩, rfl, ?_⟩
  rintro ⟨e, he⟩
  rw [hinfos] at he
  cases he

end Rank
end RoleResolution
