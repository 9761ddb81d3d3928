import Mathlib.Data.List.Perm.Subperm
import RoleResolution.Registry.Builder

/-!
# Built registries are complete

In a lawful kind set an index names one kind, and pairwise different kinds never outnumber the
count. A build that succeeds has found a definition for every index, so the lookup of any kind
gives the definition of that very kind.
-/

namespace RoleResolution

variable {κ : Type} {K : KindSet κ}

namespace KindSet

/-- The index of a kind of a lawful set is a place in the list. -/
theorem Lawful.index_lt (hK : K.Lawful) (kind : κ) : K.index kind < K.count := by
  rw [hK.counted]
  exact (List.getElem?_eq_some_iff.mp (hK.listed kind)).1

/-- Every kind of a lawful set is listed. -/
theorem Lawful.mem_all (hK : K.Lawful) (kind : κ) : kind ∈ K.all :=
  List.mem_of_getElem? (hK.listed kind)

/-- Kinds of a lawful set with the same index are the same. -/
theorem Lawful.index_inj (hK : K.Lawful) {k l : κ} (h : K.index k = K.index l) : k = l := by
  have hk := hK.listed k
  rw [h, hK.listed l] at hk
  exact (Option.some.inj hk).symm

/-- A lawful set lists no kind twice. -/
theorem Lawful.nodup_all (hK : K.Lawful) : K.all.Nodup := by
  refine List.pairwise_iff_getElem.mpr fun i j hi hj hlt he ↦ ?_
  have hplace := hK.placed i _ (List.getElem?_eq_getElem hi)
  rw [he, hK.placed j _ (List.getElem?_eq_getElem hj)] at hplace
  omega

/-- No more kinds can be pairwise different than are listed. -/
theorem Lawful.length_le_count (hK : K.Lawful) {kinds : List κ} (h : kinds.Nodup) :
    kinds.length ≤ K.count := by
  rw [hK.counted]
  exact (List.subperm_of_subset h fun kind _ ↦ hK.mem_all kind).length_le

end KindSet

/-- A computation that succeeds has a first step that succeeds. -/
theorem ok_of_bind {ε α β : Type} {x : Except ε α} {f : α → Except ε β} {b : β}
    (h : (x >>= f) = .ok b) : ∃ a, x = .ok a ∧ f a = .ok b := by
  cases x with
  | error e => cases h
  | ok a => exact ⟨a, rfl, h⟩

namespace Registry

/-- Looking up a kind gives the definition of that kind. -/
def Complete (R : Registry K) : Prop := ∀ kind, ∃ d, R.lookup kind = .ok d ∧ d.kind = kind

/-- A definition that a lookup gives is one of the registry. -/
theorem mem_of_lookup {R : Registry K} {kind : κ} {d : RoleDefinition κ}
    (h : R.lookup kind = .ok d) : d ∈ R.definitions := by
  unfold lookup at h
  split at h
  · next e he =>
    cases h
    exact List.mem_of_getElem? he
  · cases h

/-- What is not refused is no error. -/
theorem eq_none_of_refuse {e? : Option (BuildError κ)} {u : Unit}
    (h : refuse e? = .ok u) : e? = none := by
  cases e? with
  | none => rfl
  | some e => cases h

/-- Nothing is refused exactly when every place is taken. -/
theorem refuseEmpty_ok_iff {places : List (Option (RoleDefinition κ))} :
    refuseEmpty K places = .ok () ↔ ∀ place ∈ places, place.isSome := by
  unfold refuseEmpty
  cases hp : places.findIdx? (·.isNone) with
  | none =>
    rw [List.findIdx?_eq_none_iff] at hp
    exact ⟨fun _ place hm ↦ Option.isNone_eq_false_iff.mp (hp place hm), fun _ ↦ rfl⟩
  | some position =>
    obtain ⟨hlt, hempty, -⟩ := List.findIdx?_eq_some_iff_getElem.mp hp
    have htaken : ¬ ∀ place ∈ places, place.isSome := by
      intro h
      have hs := h _ (List.getElem_mem hlt)
      simp [Option.isNone_iff_eq_none.mp hempty] at hs
    refine iff_of_false ?_ htaken
    dsimp only
    split <;> nofun

/-- A successful arrangement passed every check and lists the definitions by index. -/
theorem arrange_ok {definitions arranged : List (RoleDefinition κ)}
    (h : arrange K definitions = .ok arranged) :
    misindexed? K = none ∧ unlisted? K definitions = none ∧
      dangling? K (slots K definitions) = none ∧
      (∀ place ∈ slots K definitions, place.isSome) ∧
      checkFields K arranged (arranged.flatMap fun d ↦ (comparedFields d).map (d, ·)) = .ok () ∧
      arranged = (slots K definitions).filterMap id := by
  unfold arrange at h
  obtain ⟨_, hi, h⟩ := ok_of_bind h
  obtain ⟨_, hu, h⟩ := ok_of_bind h
  obtain ⟨_, hd, h⟩ := ok_of_bind h
  obtain ⟨_, hm, h⟩ := ok_of_bind h
  obtain ⟨_, hf, h⟩ := ok_of_bind h
  have he := Except.ok.inj h
  refine ⟨eq_none_of_refuse hi, eq_none_of_refuse hu, eq_none_of_refuse hd,
    refuseEmpty_ok_iff.mp hm, ?_, he.symm⟩
  rw [← he]
  exact hf

/-- When every place is taken, the definitions that take them are the places in order. -/
theorem map_some_filterMap {α : Type} (places : List (Option α))
    (h : ∀ place ∈ places, place.isSome) : (places.filterMap id).map some = places := by
  induction places with
  | nil => rfl
  | cons place rest ih =>
    have hr := ih fun p hp ↦ h p (List.mem_cons_of_mem _ hp)
    cases place with
    | none => simpa using h none List.mem_cons_self
    | some d => exact congrArg (some d :: ·) hr

/-- An arranged list has as many definitions as there are kinds, each at the index of its kind, and
takes them all from the given ones. -/
theorem arrange_places {definitions arranged : List (RoleDefinition κ)}
    (h : arrange K definitions = .ok arranged) :
    arranged.length = K.count ∧
      ∀ i d, arranged[i]? = some d → K.index d.kind = i ∧ d ∈ definitions := by
  obtain ⟨-, -, -, htaken, -, he⟩ := arrange_ok h
  have hl : (slots K definitions).length = K.count := by simp [slots]
  have hs := map_some_filterMap _ htaken
  rw [← he] at hs
  constructor
  · rw [← hl, ← hs, List.length_map]
  · intro i d hd
    have hp : (slots K definitions)[i]? = some (some d) := by
      rw [← hs, List.getElem?_map, hd]
      rfl
    simp only [slots, List.getElem?_map, Option.map_eq_some_iff,
      List.getElem?_eq_some_iff] at hp
    obtain ⟨j, ⟨hj, rfl⟩, hf⟩ := hp
    rw [List.getElem_range] at hf
    exact ⟨by simpa using List.find?_some hf,
      List.mem_reverse.mp (List.mem_of_find?_eq_some hf)⟩

variable [DecidableEq κ]

/-- A registry that was built lists the arranged definitions, and one that was to be free of
cycles has none to report. -/
theorem build_ok {b : RegistryBuilder κ} {R : Registry K} (h : (b.build K).1 = .ok R) :
    arrange K b.definitions = .ok R.definitions ∧
      (b.config.rejectConversionCycles = true → R.graph.detectCycles K = .ok []) := by
  unfold RegistryBuilder.build at h
  split at h
  · cases h
  · next definitions ha =>
    dsimp only at h
    split at h
    · cases h
    · next cycles hc =>
      cases cycles with
      | nil =>
        split at h
        · next he => cases he
        · cases h
          exact ⟨ha, fun _ ↦ hc⟩
      | cons path rest =>
        cases hr : b.config.rejectConversionCycles with
        | true => rw [hr] at h; cases h
        | false =>
          rw [hr] at h
          cases h
          exact ⟨ha, fun hf ↦ by cases hf⟩

/-- A registry built over a lawful set is complete. -/
theorem complete_of_build (hK : K.Lawful) {b : RegistryBuilder κ} {R : Registry K}
    (h : (b.build K).1 = .ok R) : R.Complete := by
  intro kind
  obtain ⟨hl, hp⟩ := arrange_places (build_ok h).1
  have hi : K.index kind < R.definitions.length := hl ▸ hK.index_lt kind
  have hd : R.definitions[K.index kind]? = some R.definitions[K.index kind] :=
    List.getElem?_eq_getElem hi
  refine ⟨R.definitions[K.index kind], ?_, hK.index_inj (hp _ _ hd).1⟩
  simp only [lookup, hd]

end Registry

/-! ### A ladder of ranks -/

/-- Kinds that are converted up a ladder. -/
inductive Rank where
  | guest
  | member
  | editor
  | admin
  | owner
  deriving DecidableEq

namespace Rank

/-- The set of all ranks. -/
def kinds : KindSet Rank := .ofList [guest, member, editor, admin, owner] fun
  | guest => "Guest"
  | member => "Member"
  | editor => "Editor"
  | admin => "Admin"
  | owner => "Owner"

/-- The set of all ranks is lawful. -/
theorem lawful_kinds : kinds.Lawful :=
  KindSet.lawful_ofList _ (by decide) fun kind ↦ by cases kind <;> decide

/-- A conversion for every payload. -/
def always (target : Rank) : ConversionRule Rank := ⟨target, fun _ payload ↦ some payload⟩

/-- A conversion for no payload. -/
def never (target : Rank) : ConversionRule Rank := ⟨target, fun _ _ ↦ none⟩

/-- Every rank but the lowest is converted, with branches that lead nowhere and branches that
meet; the lowest rank has the given conversions. Cycles are rejected when it has none. -/
def builder (back : List (ConversionRule Rank)) : RegistryBuilder Rank where
  definitions := [
    { RoleDefinition.ofKind guest with conversions := back },
    { RoleDefinition.ofKind member with conversions := [always guest, always editor] },
    { RoleDefinition.ofKind editor with conversions := [never admin, always admin] },
    { RoleDefinition.ofKind admin with conversions := [always guest] },
    { RoleDefinition.ofKind owner with conversions := [always editor, always editor] }]
  config := ⟨back.isEmpty⟩

/-- The registry of the ladder. -/
def ladder (back : List (ConversionRule Rank)) : Registry kinds := ⟨(builder back).definitions⟩

/-- The ladder without conversions from its foot is built free of cycles. -/
theorem build_ladder : ((builder []).build kinds).1 = .ok (ladder []) := rfl

/-- The ladder with a way back from its foot is built too. -/
theorem build_loop : ((builder [always member]).build kinds).1 = .ok (ladder [always member]) :=
  rfl

end Rank
end RoleResolution
