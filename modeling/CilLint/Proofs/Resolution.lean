import CilLint.Proofs.TableShape

/-!
# Tokens resolve to the keys of the table

The token map of a module and the table of symbols name members independently of each other. The map
goes through the types from the last to the first and lets later entries win; the table goes through
them in their order and leaves out what could not be loaded. Here both are compared with the members
that a manifest declares, each with the path of types around it (`Manifest.declarations`).

* **The map.** Entering types makes a token stand for some declaration that carries it and leaves
  all other tokens alone. `TokenMap.Enters` says this of one map and another, it holds of a single
  member (`Enters.member`), and it composes (`Enters.trans`), so it holds of all types
  (`Enters.enterTypes`). References come last and win over members
  (`getElem?_enterReferences_last`).
* **The table.** The members of an entry are declarations with the key of the entry
  (`exists_declaration`).

So if only one declaration carries a token and no reference has it, then the token resolves to the
key that the table has for the member.
-/

namespace CilLint

/-! ### Declarations -/

/-- A member, with what the types around it declare, from the outermost inwards. -/
structure Declaration where
  path : List TypeInfo
  member : Member

/-- The key of a declaration: the full name of the innermost type, its name and its parameters. -/
def Declaration.key (d : Declaration) : MemberKey :=
  ⟨pathName d.path, d.member.name, d.member.parameters⟩

mutual

/-- The members of a type and of those nested in it, loaded or not. -/
def declaredInType (enclosing : List TypeInfo) : TypeDef → List Declaration
  | .node info members nested =>
    members.map (Declaration.mk (enclosing ++ [info])) ++
      declaredInTypes (enclosing ++ [info]) nested

/-- The members of several types and of those nested in them. -/
def declaredInTypes (enclosing : List TypeInfo) : List TypeDef → List Declaration
  | [] => []
  | t :: ts => declaredInType enclosing t ++ declaredInTypes enclosing ts

end

/-- **All members that a manifest declares,** at any depth. -/
def Manifest.declarations (m : Manifest) : List Declaration := declaredInTypes [] m.types

/-! ### Entering declarations -/

/-- What it means that a map comes from another one by entering declarations. -/
structure TokenMap.Enters (map : TokenMap) (ds : List Declaration) (map' : TokenMap) : Prop where
  /-- A token that is not nil stands for a declaration that carries it, if there is one. -/
  carried : ∀ t, t.isNil = false → (∃ d ∈ ds, d.member.token = t) →
    ∃ d ∈ ds, d.member.token = t ∧ map'[t]? = some d.key
  /-- All other tokens stand for what they stood for before. -/
  other : ∀ t, t.isNil = true ∨ (∀ d ∈ ds, d.member.token ≠ t) → map'[t]? = map[t]?

namespace TokenMap.Enters

variable {map map' map'' : TokenMap} {ds ds' : List Declaration}

theorem nil (map : TokenMap) : map.Enters [] map where
  carried := by simp
  other _ _ := rfl

/-- It does not matter in which order declarations are listed. -/
theorem congr (h : map.Enters ds map') (hsame : ∀ d, d ∈ ds ↔ d ∈ ds') : map.Enters ds' map' where
  carried t ht := by
    simp only [← hsame]
    exact h.carried t ht
  other t := by
    simp only [← hsame]
    exact h.other t

/-- Of two declarations with one token it is the one entered later that counts, but whichever it is,
it carries the token. -/
theorem trans (h : map.Enters ds map') (h' : map'.Enters ds' map'') :
    map.Enters (ds ++ ds') map'' where
  carried := by
    rintro t ht ⟨d, hd, htoken⟩
    -- If one of the later declarations carries the token, it wins; otherwise the later ones leave
    -- the token alone.
    by_cases hlater : ∃ d ∈ ds', d.member.token = t
    · obtain ⟨d', hd', hfound⟩ := h'.carried t ht hlater
      exact ⟨d', List.mem_append_right _ hd', hfound⟩
    · have hnone : ∀ d ∈ ds', d.member.token ≠ t := fun d' hd' heq => hlater ⟨d', hd', heq⟩
      have hearlier : d ∈ ds :=
        (List.mem_append.mp hd).resolve_right fun hd' => hnone d hd' htoken
      obtain ⟨d', hd', hcarries, hfound⟩ := h.carried t ht ⟨d, hearlier, htoken⟩
      refine ⟨d', List.mem_append_left _ hd', hcarries, ?_⟩
      rw [h'.other t (.inr hnone), hfound]
  other := by
    intro t ht
    rw [h'.other t, h.other t]
    · exact ht.imp_right fun hnone d hd => hnone d (List.mem_append_left _ hd)
    · exact ht.imp_right fun hnone d hd => hnone d (List.mem_append_right _ hd)

/-- One member is entered, unless its token is nil. A member without a token of its own has that one,
and it stands for nothing. -/
theorem member (map : TokenMap) (d : Declaration) :
    map.Enters [d] (if d.member.token.isNil then map else map.insert d.member.token d.key) where
  carried := by
    rintro t ht ⟨d', hd', rfl⟩
    obtain rfl := List.mem_singleton.mp hd'
    refine ⟨d', List.mem_singleton_self d', rfl, ?_⟩
    rw [ht, if_neg (by simp), Std.HashMap.getElem?_insert_self]
  other := by
    rintro t ht
    split_ifs with hnil
    · rfl
    · -- A token that is not touched is another one than that of the member.
      have hne : d.member.token ≠ t := by
        rcases ht with ht | ht
        · rintro rfl
          exact hnil ht
        · exact ht d (List.mem_singleton_self d)
      rw [Std.HashMap.getElem?_insert, if_neg (by simpa using hne)]

/-- The members of one type are entered one after another, under the full name of the type. -/
theorem enterMembers (map : TokenMap) (path : List TypeInfo) (members : List Member) :
    map.Enters (members.map (Declaration.mk path))
      (TokenMap.enterMembers (pathName path) members map) := by
  induction members generalizing map with
  | nil => exact nil map
  | cons m members ih => exact (member map ⟨path, m⟩).trans (ih _)

/-- **The types of a forest.** They are entered from the last to the first, so the declarations come
in another order than they are listed. -/
theorem enterTypes (map : TokenMap) (enclosing : List TypeInfo) (ts : List TypeDef) :
    map.Enters (declaredInTypes enclosing ts)
      (TokenMap.enterTypes (outerName enclosing) ts map) := by
  induction ts using TypeDef.forestInduction generalizing enclosing map with
  | nil => exact nil map
  | cons info members nested ts ihnested ihts =>
    -- The trees that follow come first, then the members of this one, then what is nested in it.
    have hrest := ihts map enclosing
    have hmembers := enterMembers (TokenMap.enterTypes (outerName enclosing) ts map)
      (enclosing ++ [info]) members
    have hnested := ihnested
      (TokenMap.enterMembers (pathName (enclosing ++ [info])) members
        (TokenMap.enterTypes (outerName enclosing) ts map)) (enclosing ++ [info])
    have hall := (hrest.trans hmembers).trans hnested
    rw [outerName_concat, pathName_concat] at hall
    refine hall.congr fun d => ?_
    rw [declaredInTypes, declaredInType]
    simp only [List.mem_append]
    tauto

end TokenMap.Enters

/-! ### Entering references -/

namespace TokenMap

theorem enterReferences_append (refs refs' : List Reference) (map : TokenMap) :
    enterReferences (refs ++ refs') map = enterReferences refs' (enterReferences refs map) :=
  List.foldl_append

/-- A token that no reference has keeps its meaning. -/
theorem getElem?_enterReferences {refs : List Reference} {t : Token}
    (h : ∀ r ∈ refs, r.token ≠ t) (map : TokenMap) : (enterReferences refs map)[t]? = map[t]? := by
  induction refs generalizing map with
  | nil => rfl
  | cons r refs ih =>
    change (enterReferences refs (map.insert r.token r.key))[t]? = _
    rw [ih (fun r' hr' => h r' (List.mem_cons_of_mem r hr')), Std.HashMap.getElem?_insert,
      if_neg (by simpa using h r List.mem_cons_self)]

/-- The last reference with a token gives its meaning, whatever the token stood for before. -/
theorem getElem?_enterReferences_last {before after : List Reference} {r : Reference}
    (h : ∀ r' ∈ after, r'.token ≠ r.token) (map : TokenMap) :
    (enterReferences (before ++ r :: after) map)[r.token]? = some r.key := by
  rw [enterReferences_append]
  change (enterReferences after ((enterReferences before map).insert r.token r.key))[r.token]? = _
  rw [getElem?_enterReferences h, Std.HashMap.getElem?_insert_self]

end TokenMap

/-! ### Declarations in the table -/

/-- A site holds the module that it was found in, and its members are declared there. -/
theorem declared_of_mem_sitesOfTypes {m : Module} {address : List Nat} {enclosing : List TypeInfo}
    {position : Nat} {ts : List TypeDef} {s : Site}
    (h : s ∈ sitesOfTypes m address enclosing position ts) :
    s.module = m ∧ ∀ x ∈ s.type.members, ⟨s.path, x⟩ ∈ declaredInTypes enclosing ts := by
  induction ts using TypeDef.forestInduction generalizing address enclosing position with
  | nil => exact absurd h List.not_mem_nil
  | cons info members nested ts ihnested ihts =>
    rw [declaredInTypes, declaredInType]
    rw [sitesOfTypes_cons, List.mem_append] at h
    rcases h with h | h
    · -- In the first tree there are sites only if its type could be loaded.
      cases hload : info.unresolved with
      | some reason =>
        rw [sitesOfType_unresolved m _ _ hload] at h
        exact absurd h List.not_mem_nil
      | none =>
        rw [sitesOfType_loaded m _ _ hload, List.mem_cons] at h
        rcases h with rfl | h
        · refine ⟨rfl, fun x hx => ?_⟩
          exact List.mem_append_left _ (List.mem_append_left _ (List.mem_map_of_mem hx))
        · obtain ⟨hmodule, hdeclared⟩ := ihnested h
          refine ⟨hmodule, fun x hx => ?_⟩
          exact List.mem_append_left _ (List.mem_append_right _ (hdeclared x hx))
    -- In a later tree it is declared further on in the list.
    · obtain ⟨hmodule, hdeclared⟩ := ihts h
      exact ⟨hmodule, fun x hx => List.mem_append_right _ (hdeclared x hx)⟩

/-- **A member in the table** is declared in its module, under the key that the table has for it. The
table and the token map compute full names in different ways; both are the name of the path. -/
theorem exists_declaration {modules : List Module} {e : TypeEntry} {x : MemberEntry}
    (he : e ∈ (SymbolTable.ofModules modules).types) (hx : x ∈ e.members) :
    ∃ d ∈ e.module.manifest.declarations, d.member = x.member ∧ d.key = x.key := by
  obtain ⟨i, hi⟩ := List.mem_iff_getElem?.mp he
  obtain ⟨s, hs, rfl⟩ := exists_site hi
  obtain ⟨j, m, -, hmem⟩ := mem_sitesOfModules.mp (List.mem_of_getElem? hs)
  obtain ⟨hmodule, hdeclared⟩ := declared_of_mem_sitesOfTypes hmem
  obtain ⟨⟨member, id⟩, hmember, rfl⟩ := List.mem_map.mp hx
  have hloaded : member ∈ s.loaded := List.fst_mem_of_mem_zipIdx hmember
  refine ⟨⟨s.path, member⟩, ?_, rfl, rfl⟩
  change _ ∈ s.module.manifest.declarations
  rw [hmodule]
  exact hdeclared member (List.mem_filter.mp hloaded).1

/-! ### Resolution -/

/-- What it means that tokens resolve by a manifest. -/
structure Manifest.Resolves (m : Manifest) (resolve : Token → Option MemberKey) : Prop where
  /-- The last reference with a token gives its meaning. -/
  reference : ∀ before r after, m.references = before ++ r :: after →
    (∀ r' ∈ after, r'.token ≠ r.token) → resolve r.token = some r.key
  /-- A token in no reference that is not nil and that members carry stands for one of them. -/
  member : ∀ t, (∀ r ∈ m.references, r.token ≠ t) → t.isNil = false →
    (∃ d ∈ m.declarations, d.member.token = t) →
      ∃ d ∈ m.declarations, d.member.token = t ∧ resolve t = some d.key
  /-- If there is only one, it is that one. -/
  only : ∀ d ∈ m.declarations, (∀ r ∈ m.references, r.token ≠ d.member.token) →
    d.member.token.isNil = false →
      (m.declarations.countP fun d' => d'.member.token = d.member.token) = 1 →
        resolve d.member.token = some d.key
  /-- Any other token stands for nothing. -/
  unknown : ∀ t, (∀ r ∈ m.references, r.token ≠ t) →
    t.isNil = true ∨ (∀ d ∈ m.declarations, d.member.token ≠ t) → resolve t = none

/-- Two elements with a property that only one element has are the same. -/
theorem eq_of_countP_eq_one {α : Type} {l : List α} {p : α → Bool} (h : l.countP p = 1) {a b : α}
    (ha : a ∈ l) (hpa : p a = true) (hb : b ∈ l) (hpb : p b = true) : a = b := by
  -- There is a single element that has the property.
  rw [List.countP_eq_length_filter, List.length_eq_one_iff] at h
  obtain ⟨c, hc⟩ := h
  have hfilter : ∀ x ∈ l, p x = true → x = c := by
    intro x hx hpx
    have hmem : x ∈ l.filter p := List.mem_filter.mpr ⟨hx, hpx⟩
    rw [hc] at hmem
    exact List.mem_singleton.mp hmem
  rw [hfilter a ha hpa, hfilter b hb hpb]

/-- **Tokens resolve by the manifest.** References are entered last, so they win over members, and the
last reference wins over the others. -/
theorem resolves_ofManifest (m : Manifest) : m.Resolves (Module.ofManifest m).resolve? := by
  have henters : TokenMap.Enters ∅ m.declarations (TokenMap.enterTypes none m.types ∅) :=
    TokenMap.Enters.enterTypes ∅ [] m.types
  -- Without a reference, a token means what the types make of it.
  have hresolve : ∀ t, (∀ r ∈ m.references, r.token ≠ t) →
      (Module.ofManifest m).resolve? t = (TokenMap.enterTypes none m.types ∅)[t]? :=
    fun t h => TokenMap.getElem?_enterReferences h _
  have hmember : ∀ t, (∀ r ∈ m.references, r.token ≠ t) → t.isNil = false →
      (∃ d ∈ m.declarations, d.member.token = t) →
        ∃ d ∈ m.declarations, d.member.token = t ∧
          (Module.ofManifest m).resolve? t = some d.key := by
    intro t href hnil hcarried
    rw [hresolve t href]
    exact henters.carried t hnil hcarried
  -- What remains are tokens with a reference, tokens that one member carries, and tokens that none
  -- carries.
  refine ⟨?_, hmember, ?_, ?_⟩
  · intro before r after hrefs hlast
    change (TokenMap.enterReferences m.references _)[r.token]? = _
    rw [hrefs]
    exact TokenMap.getElem?_enterReferences_last hlast _
  · intro d hd href hnil honly
    obtain ⟨d', hd', htoken, hfound⟩ := hmember _ href hnil ⟨d, hd, rfl⟩
    rw [hfound, eq_of_countP_eq_one honly hd' (by simpa using htoken) hd (by simp)]
  · intro t href hnone
    rw [hresolve t href, henters.other t hnone]
    exact Std.HashMap.getElem?_empty

/-- **Tokens and the table name members alike.** Tokens resolve by the references and declarations
of the manifest. So the token of a member in the table resolves to the key that the table has for it,
if it is not nil, no other member carries it and no reference has it. -/
theorem tokens_resolve_to_keys (m : Manifest) :
    m.Resolves (Module.ofManifest m).resolve? ∧
      ∀ (modules : List Module), ∀ e ∈ (SymbolTable.ofModules modules).types,
        e.module = .ofManifest m → ∀ x ∈ e.members, x.member.token.isNil = false →
          (m.declarations.countP fun d => d.member.token = x.member.token) = 1 →
          (∀ r ∈ m.references, r.token ≠ x.member.token) →
            (Module.ofManifest m).resolve? x.member.token = some x.key := by
  have hresolves := resolves_ofManifest m
  refine ⟨hresolves, ?_⟩
  intro modules e he hmodule x hx hnil honly href
  -- The member of the table is one of the declarations, and it has the same key there.
  obtain ⟨d, hd, hmember, hkey⟩ := exists_declaration he hx
  rw [hmodule] at hd
  rw [← hmember] at hnil honly href ⊢
  rw [← hkey]
  exact hresolves.only d hd href hnil honly

end CilLint
