import CilLint.Proofs.Resolution

/-!
# Building keeps the token map in step

A module that is built step by step keeps a manifest and a token map, and the steps treat the map in
different ways: a type makes it anew, a reference adds one entry to it, a location leaves it alone. A
module is *in step* if its map resolves all tokens as the map of its manifest does.

* Every step keeps a module in step (`inStep_apply`), so every sequence of steps does (`inStep_build`).
  For a reference this holds because references are entered last and in order: the new entry is the
  last one of the map made anew.
* The manifest after some steps is the one before them with the types and the references of the steps
  behind its own (`manifest_build`). So it depends on the order of steps of one kind only, and with it
  the meaning of tokens.
-/

namespace CilLint

/-! ### Steps -/

/-- What a step of building adds to a module. -/
inductive BuildKind where
  | type | reference | location
  deriving DecidableEq

/-- A step of building. -/
inductive BuildStep where
  | type (t : TypeDef)
  /-- A reference to a member without parameters. -/
  | reference (token : Token) (declaringType name : String)
  /-- A reference to one overload. -/
  | referenceTo (token : Token) (target : MemberKey)
  | location (text : String)

namespace BuildStep

/-- What a step adds. -/
def kind : BuildStep → BuildKind
  | type _ => .type
  | reference _ _ _ | referenceTo _ _ => .reference
  | location _ => .location

/-- Does one step. -/
def apply (m : Module) : BuildStep → Module
  | type t => m.withType t
  | reference token declaringType name => m.withReference token { declaringType, name }
  | referenceTo token target => m.withReference token target
  | location text => m.withLocation text

/-- The type that a step adds. -/
def type? : BuildStep → Option TypeDef
  | type t => some t
  | _ => none

/-- The reference that a step adds. -/
def reference? : BuildStep → Option Reference
  | reference token declaringType name => some { token, declaringType, name }
  | referenceTo token target => some (.toKey token target)
  | _ => none

/-- The location that a step gives. -/
def location? : BuildStep → Option String
  | location text => some text
  | _ => none

end BuildStep

/-- Does steps in order. -/
def Module.build (m : Module) (steps : List BuildStep) : Module := steps.foldl BuildStep.apply m

@[simp] theorem Module.build_nil (m : Module) : m.build [] = m := rfl

@[simp] theorem Module.build_cons (m : Module) (step : BuildStep) (steps : List BuildStep) :
    m.build (step :: steps) = (step.apply m).build steps := rfl

/-- A module before the first step: with nothing in it, or as a manifest describes it. -/
inductive Module.Fresh : Module → Prop where
  | empty (name : String) : Fresh (.empty name)
  | ofManifest (manifest : Manifest) : Fresh (.ofManifest manifest)

/-! ### The token map -/

/-- **What it means that a module is in step:** it resolves every token as its manifest says. -/
def Module.InStep (m : Module) : Prop :=
  ∀ token, m.resolve? token = (Module.ofManifest m.manifest).resolve? token

/-- A module made from a manifest is in step, and so is every module before the first step. -/
theorem inStep_ofManifest (manifest : Manifest) : (Module.ofManifest manifest).InStep :=
  fun _ => rfl

theorem Module.Fresh.inStep {m : Module} (h : m.Fresh) : m.InStep := by
  cases h with
  | empty name => exact inStep_ofManifest _
  | ofManifest manifest => exact inStep_ofManifest manifest

/-- A reference that is added to a manifest makes the last entry of its map. -/
theorem inStep_withReference {m : Module} (h : m.InStep) (token : Token) (target : MemberKey) :
    (m.withReference token target).InStep := by
  intro t
  -- References are entered after all members, and the new one after all other references.
  have hmap : TokenMap.ofManifest (m.withReference token target).manifest
      = (TokenMap.ofManifest m.manifest).insert token target := by
    change TokenMap.enterReferences (m.manifest.references ++ [.toKey token target]) _ = _
    rw [TokenMap.enterReferences_append]
    rfl
  -- The two maps need not be equal, only their answers are.
  have hbefore : m.tokens[t]? = (TokenMap.ofManifest m.manifest)[t]? := h t
  change (m.tokens.insert token target)[t]?
    = (TokenMap.ofManifest (m.withReference token target).manifest)[t]?
  rw [hmap, Std.HashMap.getElem?_insert, Std.HashMap.getElem?_insert, hbefore]

/-- **Every step keeps a module in step.** A type makes the map anew, a reference adds to it what
making it anew would add, and a location is not looked at. -/
theorem inStep_apply {m : Module} (h : m.InStep) (step : BuildStep) : (step.apply m).InStep := by
  cases step with
  | type t => exact inStep_ofManifest _
  | reference token declaringType name => exact inStep_withReference h token _
  | referenceTo token target => exact inStep_withReference h token target
  | location text => exact h

/-- **Every sequence of steps keeps a module in step,** whatever the steps are and however they are
mixed. -/
theorem inStep_build {m : Module} (h : m.InStep) (steps : List BuildStep) :
    (m.build steps).InStep := by
  induction steps generalizing m with
  | nil => exact h
  | cons step steps ih => exact ih (inStep_apply h step)

/-! ### The manifest -/

/-- What one step does to the manifest: it adds a type or a reference at the end, or it gives another
location. -/
theorem manifest_apply (m : Module) (step : BuildStep) :
    (step.apply m).manifest
      = { name := m.manifest.name
          location := step.location?.or m.manifest.location
          types := m.manifest.types ++ step.type?.toList
          references := m.manifest.references ++ step.reference?.toList } := by
  cases step <;>
    simp [BuildStep.apply, BuildStep.location?, BuildStep.type?, BuildStep.reference?,
      Module.withType, Module.withReference, Module.withLocation, Module.ofManifest, Reference.toKey]

/-- **The manifest after some steps:** types and references come behind those that were there, and the
last location counts. -/
theorem manifest_build (m : Module) (steps : List BuildStep) :
    (m.build steps).manifest
      = { name := m.manifest.name
          location := (steps.filterMap BuildStep.location?).getLast?.or m.manifest.location
          types := m.manifest.types ++ steps.filterMap BuildStep.type?
          references := m.manifest.references ++ steps.filterMap BuildStep.reference? } := by
  -- What a step adds is a list of at most one element, so that it can be appended.
  simp only [List.filterMap_eq_flatMap_toList]
  induction steps generalizing m with
  | nil => simp
  | cons step steps ih =>
    have hlast : ∀ location? : Option String, location?.toList.getLast? = location? := by
      intro location?
      cases location? <;> rfl
    rw [Module.build_cons, ih, manifest_apply]
    simp only [List.flatMap_cons, List.append_assoc, List.getLast?_append, hlast, Option.or_assoc]

/-- **What it means that two sequences interleave the same steps:** for each kind, they have the same
steps of that kind in the same order. -/
def Reinterleaves (steps steps' : List BuildStep) : Prop :=
  ∀ kind, (steps.filter fun s => s.kind = kind) = steps'.filter fun s => s.kind = kind

/-- What is read off the steps of one kind does not depend on the other steps between them. -/
theorem Reinterleaves.filterMap_eq {α : Type} {steps steps' : List BuildStep}
    (h : Reinterleaves steps steps') {f : BuildStep → Option α} (kind : BuildKind)
    (hf : ∀ s, s.kind ≠ kind → f s = none) : steps.filterMap f = steps'.filterMap f := by
  -- Steps of other kinds add nothing, so they can be left out first.
  have hfilter : ∀ l : List BuildStep,
      l.filterMap f = (l.filter fun s => s.kind = kind).filterMap f := by
    intro l
    rw [List.filterMap_filter]
    refine List.filterMap_congr fun s _ => ?_
    by_cases hkind : s.kind = kind
    · simp [hkind]
    · simp [hkind, hf s hkind]
  rw [hfilter steps, hfilter steps', h kind]

/-- **The order of steps of different kinds does not matter to the manifest.** Each part of it is read
off the steps of one kind. -/
theorem Reinterleaves.manifest_eq {steps steps' : List BuildStep} (h : Reinterleaves steps steps')
    (m : Module) : (m.build steps).manifest = (m.build steps').manifest := by
  have htypes := h.filterMap_eq (f := BuildStep.type?) .type fun s hs => by
    cases s <;> simp [BuildStep.kind, BuildStep.type?] at hs ⊢
  have hreferences := h.filterMap_eq (f := BuildStep.reference?) .reference fun s hs => by
    cases s <;> simp [BuildStep.kind, BuildStep.reference?] at hs ⊢
  have hlocations := h.filterMap_eq (f := BuildStep.location?) .location fun s hs => by
    cases s <;> simp [BuildStep.kind, BuildStep.location?] at hs ⊢
  rw [manifest_build, manifest_build, htypes, hreferences, hlocations]

/-- **Building keeps the token map in step with the manifest.** So two sequences that interleave the
same steps make modules with equal manifests, in which all tokens have the same meaning. -/
theorem building_keeps_in_step {start : Module} (h : start.Fresh) (steps : List BuildStep) :
    (∀ token, (start.build steps).resolve? token
        = (Module.ofManifest (start.build steps).manifest).resolve? token) ∧
      ∀ steps', Reinterleaves steps steps' →
        (start.build steps).manifest = (start.build steps').manifest ∧
          ∀ token, (start.build steps).resolve? token = (start.build steps').resolve? token := by
  refine ⟨inStep_build h.inStep steps, ?_⟩
  intro steps' hsame
  have hmanifest := hsame.manifest_eq start
  refine ⟨hmanifest, fun token => ?_⟩
  calc (start.build steps).resolve? token
      = (Module.ofManifest (start.build steps).manifest).resolve? token :=
        inStep_build h.inStep steps token
    _ = (Module.ofManifest (start.build steps').manifest).resolve? token := by rw [hmanifest]
    _ = (start.build steps').resolve? token := (inStep_build h.inStep steps' token).symm

/-! A reference with the token of a member, before and after the type that declares the member. -/

/-- A type with one method. -/
def lanternType : TypeDef :=
  .node { name := "Lantern", nameSpace := "Game" }
    [{ name := "Light", kind := .method, token := ⟨0x06000001⟩ }] []

/-- What the last reference stands for. -/
def lanternKey : MemberKey := ⟨"System.Console", "WriteLine", ["System.String"]⟩

/-- Here the type is added before the references that take its token, -/
def typeFirst : List BuildStep :=
  [.type lanternType, .reference ⟨0x06000001⟩ "Game.Hud" "Draw", .location "game.yaml",
    .referenceTo ⟨0x06000001⟩ lanternKey]

/-- and here after them. -/
def referencesFirst : List BuildStep :=
  [.reference ⟨0x06000001⟩ "Game.Hud" "Draw", .referenceTo ⟨0x06000001⟩ lanternKey,
    .type lanternType, .location "game.yaml"]

/-- In both cases the token stands for the last reference with it, not for the method. -/
theorem resolve?_lantern :
    (Module.empty "Game").Fresh ∧ Reinterleaves typeFirst referencesFirst ∧
      ((Module.empty "Game").build typeFirst).resolve? ⟨0x06000001⟩ = some lanternKey ∧
      ((Module.empty "Game").build referencesFirst).resolve? ⟨0x06000001⟩ = some lanternKey := by
  have hfresh : (Module.empty "Game").Fresh := .empty "Game"
  have hsame : Reinterleaves typeFirst referencesFirst := by
    intro kind
    cases kind <;> rfl
  obtain ⟨hinStep, hothers⟩ := building_keeps_in_step hfresh typeFirst
  -- The second reference is the last one with the token.
  have hlast : ((Module.empty "Game").build typeFirst).resolve? ⟨0x06000001⟩ = some lanternKey := by
    rw [hinStep]
    exact (resolves_ofManifest _).reference [⟨⟨0x06000001⟩, "Game.Hud", "Draw", []⟩]
      (.toKey ⟨0x06000001⟩ lanternKey) [] rfl (by simp)
  refine ⟨hfresh, hsame, hlast, ?_⟩
  rw [← (hothers referencesFirst hsame).2]
  exact hlast

end CilLint
