import SedsNet.SchemaCatalog

/-! # Endpoint and type definitions as joins

Endpoint definitions with one name join their link-local flags (`endpointJoining`), and type
definitions with one layout join their destinations and priorities (`typeJoining`).  Definitions of
the protocol itself and placeholders for unknown endpoints are the exceptions, and `EndpointOk` and
`TypeOk` say what the catalog has to look like for the joins to commute. -/

namespace SedsNet

open CommutingFold DefinitionKind

/-! ### Joins from merges -/

namespace DefinitionKind

variable {δ V : Type} {kind : DefinitionKind δ} {view : δ → V} {join : Option V → δ → V} {ok : UInt32 → Option V → Prop}
  {S : δ → Prop}

/-- A merge leaves what is there, or puts the merged definition in its place. -/
theorem settled_some (e d : δ) : (kind.settled (some e) d = e ∧ kind.Absorbed (some e) d) ∨
    (kind.settled (some e) d = kind.mergeMetadata e d ∧ ¬ kind.equivalent e (kind.mergeMetadata e d) = true) := by
  simp only [settled]
  split_ifs with heq hkept
  · exact .inl ⟨rfl, e, rfl, .inl heq⟩
  · exact .inl ⟨rfl, e, rfl, .inr hkept⟩
  · exact .inr ⟨rfl, hkept⟩

/-- It is enough to know the view of a merge, and that definitions of the form `merged`, in which a change
leaves them, absorb what does not change their view. -/
theorem Joining.of_merges (merged : δ → Prop)
    (hid : ∀ {e d}, kind.id e = kind.id d → kind.id (kind.mergeMetadata e d) = kind.id d)
    (hname : ∀ e d, kind.name (kind.mergeMetadata e d) = kind.name d ∨ kind.name (kind.mergeMetadata e d) = kind.name e)
    (hsame : ∀ {d d'}, S d → S d' → kind.name d = kind.name d' → kind.id d = kind.id d')
    (hjoins : ∀ k, Absorbing (fun o d => some (join o d)) (ok k) fun d => S d ∧ kind.id d = k)
    (hrefl : ∀ d, kind.equivalent d d = true) (hview : ∀ {a b}, kind.equivalent a b = true → view a = view b)
    (hfirst : ∀ d, view d = join none d)
    (hrepeat : ∀ {e d}, kind.equivalent e d = true → join (some (view e)) d = view e)
    (hmerge : ∀ {e d}, kind.id e = kind.id d → S d → ok (kind.id d) (some (view e)) →
      view (kind.mergeMetadata e d) = join (some (view e)) d)
    (hmerged : ∀ {e d}, kind.id e = kind.id d → S d → ok (kind.id d) (some (view e)) →
      ¬ kind.equivalent e (kind.mergeMetadata e d) = true → merged (kind.mergeMetadata e d))
    (hfixed : ∀ {m d}, merged m → kind.id m = kind.id d → S d → ok (kind.id d) (some (view m)) →
      join (some (view m)) d = view m → kind.Absorbed (some m) d) : kind.Joining view join ok S := by
  have hfix : ∀ {e d}, kind.id e = kind.id d → S d → ok (kind.id d) (some (view e)) → kind.Absorbed (some e) d →
      join (some (view e)) d = view e := by
    rintro e d he hd hok ⟨e', he', heq | hkept⟩
    · cases he'
      exact hrepeat heq
    · cases he'
      rw [← hmerge he hd hok, ← hview hkept]
  have habsorbs : ∀ {e d d'}, kind.id e = kind.id d' → kind.id d' = kind.id d → S d → S d' →
      ok (kind.id d') (some (view e)) → ¬ kind.equivalent e (kind.mergeMetadata e d') = true →
      join (some (join (some (view e)) d')) d = join (some (view e)) d' →
      kind.Absorbed (some (kind.mergeMetadata e d')) d := by
    intro e d d' he hid' hd hd' hok hnew hfixed'
    have hok' := (hjoins _).keeps hok ⟨hd', rfl⟩
    rw [← hmerge he hd' hok] at hfixed' hok'
    exact hfixed (hmerged he hd' hok hnew) ((hid he).trans hid') hd (hid' ▸ hok') hfixed'
  refine ⟨hid, ?_, hsame, hjoins, ?_, ?_, ?_⟩
  · rintro (_ | e) d ho
    · exact .inl rfl
    obtain ⟨hkept, -⟩ | ⟨hmerged, -⟩ := kind.settled_some e d
    · exact .inr ⟨e, rfl, congrArg kind.name hkept⟩
    · rw [hmerged]
      exact (hname e d).imp_right fun h => ⟨e, rfl, h⟩
  · rintro (_ | e) d hd ho hok
    · exact hfirst d
    obtain ⟨hkept, habsorbed⟩ | ⟨hmerged, -⟩ := kind.settled_some e d
    · rw [hkept]
      exact (hfix (ho e rfl) hd hok habsorbed).symm
    · rw [hmerged]
      exact hmerge (ho e rfl) hd hok
  · rintro (_ | e) d hd ho hok
    · exact ⟨d, rfl, .inl (hrefl d)⟩
    obtain ⟨hkept, habsorbed⟩ | ⟨hmerged, hnew⟩ := kind.settled_some e d
    · rwa [hkept]
    · rw [hmerged]
      exact habsorbs (ho e rfl) rfl hd hd hok hnew (Option.some.inj ((hjoins _).idem hok ⟨hd, rfl⟩))
  · intro e d d' hd hd' he hid' hok habsorbed
    obtain ⟨hkept, -⟩ | ⟨hmerged, hnew⟩ := kind.settled_some e d'
    · rwa [hkept]
    · rw [hmerged]
      -- the other definition was absorbed before, and the joins commute
      have hcomm := Option.some.inj ((hjoins _).comm hok ⟨hd', hid'⟩ ⟨hd, rfl⟩)
      rw [hfix he hd hok habsorbed] at hcomm
      exact habsorbs (he.trans hid'.symm) hid' hd hd' (hid' ▸ hok) hnew hcomm

end DefinitionKind

/-! ### Endpoints -/

/-- What the network sees of an endpoint definition. -/
def endpointView (e : OwnedEndpointDefinition) : String × Bool := (e.name, e.linkLocalOnly)

/-- A definition with the name of the endpoint adds its link-local flag; a placeholder gives way to a
real name. -/
def endpointJoin (o : Option (String × Bool)) (d : OwnedEndpointDefinition) : String × Bool :=
  match o with
  | none => endpointView d
  | some (name, linkLocal) =>
    if isInternalEndpoint d.id then (name, linkLocal)
    else if name = d.name then (name, linkLocal || d.linkLocalOnly)
    else if endpointPlaceholder d.id name && !endpointPlaceholder d.id d.name then endpointView d
    else (name, linkLocal)

/-- The endpoint of the id `k` goes with the definitions of `S`: it has their name, or one of the two
names is a placeholder. -/
structure EndpointOk (S : OwnedEndpointDefinition → Prop) (k : UInt32) (o : Option (String × Bool)) :
    Prop where
  internal : isInternalEndpoint k = true → o ≠ none
  accepts : ∀ name linkLocal, o = some (name, linkLocal) → ∀ d, S d → d.id = k →
    name = d.name ∨ endpointPlaceholder k name = true ∨ endpointPlaceholder k d.name = true
  name : ∀ name linkLocal, o = some (name, linkLocal) → ∀ d, S d → d.id = k →
    isInternalEndpoint k = true ∨ name = d.name ∨
      endpointPlaceholder k name ≠ endpointPlaceholder k d.name

theorem endpointDefEquivalent_refl (a : OwnedEndpointDefinition) : endpointDefEquivalent a a = true := by
  simp [endpointDefEquivalent, descriptionsAgree]

theorem endpointView_of_equivalent {a b : OwnedEndpointDefinition}
    (h : endpointDefEquivalent a b = true) : endpointView a = endpointView b := by
  simp only [endpointDefEquivalent, Bool.and_eq_true, beq_iff_eq] at h
  obtain ⟨⟨⟨_, hname⟩, _⟩, hlocal⟩ := h
  rw [endpointView, endpointView, hname, hlocal]

/-- The merge of an endpoint that goes with the definition, by cases. -/
inductive EndpointMerge (e d : OwnedEndpointDefinition) : OwnedEndpointDefinition → Prop
  | internal (h : isInternalEndpoint d.id = true) : EndpointMerge e d e
  | same (hint : isInternalEndpoint d.id = false) (hname : e.name = d.name) :
      EndpointMerge e d { e with linkLocalOnly := e.linkLocalOnly || d.linkLocalOnly }
  | named (hint : isInternalEndpoint d.id = false) (hname : e.name ≠ d.name)
      (he : endpointPlaceholder d.id e.name = true) (hd : endpointPlaceholder d.id d.name = false) :
      EndpointMerge e d d
  | placeholder (hint : isInternalEndpoint d.id = false) (hname : e.name ≠ d.name)
      (he : endpointPlaceholder d.id e.name = false) (hd : endpointPlaceholder d.id d.name = true) :
      EndpointMerge e d e

variable {e d : OwnedEndpointDefinition}

theorem mergeEndpointMetadata_cases (hid : e.id = d.id) (hok : isInternalEndpoint d.id = true ∨ e.name = d.name ∨
      endpointPlaceholder d.id e.name ≠ endpointPlaceholder d.id d.name) :
    EndpointMerge e d (mergeEndpointMetadata e d) := by
  obtain ⟨id, name, description, linkLocal⟩ := e
  obtain rfl : id = d.id := hid
  unfold mergeEndpointMetadata
  cases hint : isInternalEndpoint d.id with
  | true => exact .internal hint
  | false =>
    rw [if_neg (by simp)]
    by_cases hname : name = d.name
    · rw [if_neg (by simp [hname]), if_neg (by simp [hname]), if_neg (by simp [hname])]
      exact .same hint hname
    have hne : endpointPlaceholder d.id name ≠ endpointPlaceholder d.id d.name := by
      simpa [hint, hname] using hok
    cases he : endpointPlaceholder d.id name with
    | true =>
      have hd : endpointPlaceholder d.id d.name = false := by simpa [he] using hne.symm
      rw [if_pos ⟨rfl, hname, rfl, hd⟩]
      exact .named hint hname he hd
    | false =>
      have hd : endpointPlaceholder d.id d.name = true := by simpa [he] using hne.symm
      rw [if_neg (by simp), if_pos ⟨rfl, hname, hd, rfl⟩]
      exact .placeholder hint hname he hd

section Endpoints

variable {S : OwnedEndpointDefinition → Prop}
  (hS : ∀ {d d'}, S d → S d' → (d.id = d'.id ↔ d.name = d'.name))

variable {d : OwnedEndpointDefinition} {name : String} {linkLocal : Bool}

theorem endpointJoin_same (hint : isInternalEndpoint d.id = false) (hname : name = d.name) :
    endpointJoin (some (name, linkLocal)) d = (name, linkLocal || d.linkLocalOnly) := by
  simp [endpointJoin, hint, hname]

/-- A join either adds to the endpoint, or puts the definition in its place, or leaves it, and which
of the three depends only on the id and the names. -/
theorem endpointJoin_cases (hok : EndpointOk S d.id (some (name, linkLocal))) (hd : S d) :
    (isInternalEndpoint d.id = false ∧ name = d.name) ∨ (isInternalEndpoint d.id = false ∧
      ∀ l d', d'.id = d.id → d'.name = d.name → endpointJoin (some (name, l)) d' = endpointView d') ∨
    ∀ l d', d'.id = d.id → d'.name = d.name → endpointJoin (some (name, l)) d' = (name, l) := by
  have hname := hok.name name linkLocal rfl d hd rfl
  cases hint : isInternalEndpoint d.id with
  | true =>
    refine .inr (.inr ?_)
    intro l d' hid hname'
    simp [endpointJoin, hid, hint]
  | false =>
    by_cases hsame : name = d.name
    · exact .inl ⟨rfl, hsame⟩
    have hne : endpointPlaceholder d.id name ≠ endpointPlaceholder d.id d.name := by
      simpa [hint, hsame] using hname
    cases hp : endpointPlaceholder d.id name with
    | true =>
      have hreal : endpointPlaceholder d.id d.name = false := by simpa [hp] using hne.symm
      refine .inr (.inl ⟨rfl, ?_⟩)
      intro l d' hid hname'
      simp [endpointJoin, hid, hname', hint, hsame, hp, hreal]
    | false =>
      refine .inr (.inr ?_)
      intro l d' hid hname'
      simp [endpointJoin, hid, hname', hint, hsame, hp]

theorem EndpointOk.internal_none {k : UInt32} (h : EndpointOk S k none) : isInternalEndpoint k = false := by
  cases hint : isInternalEndpoint k with
  | false => rfl
  | true => exact absurd rfl (h.internal hint)

include hS

theorem endpoint_joins (k : UInt32) : Absorbing (fun o d => some (endpointJoin o d)) (EndpointOk S k)
    fun d => S d ∧ d.id = k where
  keeps := by
    rintro o d hok ⟨hd, rfl⟩
    -- The new name is the one of all definitions of the id, or the old one.
    have hnew : ∀ name linkLocal, some (endpointJoin o d) = some (name, linkLocal) → ∀ d', S d' →
        d'.id = d.id → name = d'.name ∨ ∃ l, o = some (name, l) := by
      intro name linkLocal hjoin d' hd' hid'
      have hname' : d.name = d'.name := (hS hd hd').mp hid'.symm
      cases o with
      | none =>
        cases hjoin
        exact .inl hname'
      | some v =>
        obtain ⟨n, l⟩ := v
        obtain ⟨hint, hname⟩ | ⟨_, hview⟩ | hkept := endpointJoin_cases hok hd
        · rw [endpointJoin_same hint hname] at hjoin
          cases hjoin
          exact .inl (hname.trans hname')
        · rw [hview l d rfl rfl] at hjoin
          cases hjoin
          exact .inl hname'
        · rw [hkept l d rfl rfl] at hjoin
          cases hjoin
          exact .inr ⟨_, rfl⟩
    refine ⟨fun _ => by simp, ?_, ?_⟩
    · intro name linkLocal hjoin d' hd' hid'
      obtain hname | ⟨l, ho⟩ := hnew name linkLocal hjoin d' hd' hid'
      · exact .inl hname
      · exact hok.accepts name l ho d' hd' hid'
    · intro name linkLocal hjoin d' hd' hid'
      obtain hname | ⟨l, ho⟩ := hnew name linkLocal hjoin d' hd' hid'
      · exact .inr (.inl hname)
      · exact hok.name name l ho d' hd' hid'
  comm := by
    rintro o d d' hok ⟨hd, rfl⟩ ⟨hd', hid'⟩
    have hname' : d'.name = d.name := (hS hd' hd).mp hid'
    cases o with
    | none =>
      have hint := hok.internal_none
      have hint' : isInternalEndpoint d'.id = false := by rw [hid', hint]
      simp only [endpointJoin, endpointView, hint, hint', hname', Bool.or_comm]
      rfl
    | some v =>
      obtain ⟨n, l⟩ := v
      obtain ⟨hint, hname⟩ | ⟨hint, hview⟩ | hkept := endpointJoin_cases hok hd
      · have hint' : isInternalEndpoint d'.id = false := by rw [hid', hint]
        have hname'' : n = d'.name := hname.trans hname'.symm
        simp only [endpointJoin_same hint hname, endpointJoin_same hint' hname'', Bool.or_right_comm]
      · have hint' : isInternalEndpoint d'.id = false := by rw [hid', hint]
        rw [hview l d rfl rfl, hview l d' hid' hname', endpointView, endpointView,
          endpointJoin_same hint' hname'.symm, endpointJoin_same hint hname', hname', Bool.or_comm]
      · rw [hkept l d rfl rfl, hkept l d' hid' hname', hkept l d rfl rfl]
  idem := by
    rintro o d hok ⟨hd, rfl⟩
    cases o with
    | none =>
      rw [endpointJoin, endpointView, endpointJoin_same hok.internal_none rfl, Bool.or_self]
    | some v =>
      obtain ⟨n, l⟩ := v
      obtain ⟨hint, hname⟩ | ⟨hint, hview⟩ | hkept := endpointJoin_cases hok hd
      · rw [endpointJoin_same hint hname, endpointJoin_same hint hname, Bool.or_assoc, Bool.or_self]
      · rw [hview l d rfl rfl, endpointView, endpointJoin_same hint rfl, Bool.or_self]
      · rw [hkept l d rfl rfl, hkept l d rfl rfl]

variable {e : OwnedEndpointDefinition}

omit hS in
theorem endpointView_merge (hid : e.id = d.id) (hd : S d) (hok : EndpointOk S d.id (some (endpointView e))) :
    endpointView (mergeEndpointMetadata e d) = endpointJoin (some (endpointView e)) d := by
  have hmerge := mergeEndpointMetadata_cases hid (hok.name e.name e.linkLocalOnly rfl d hd rfl)
  generalize mergeEndpointMetadata e d = m at hmerge
  cases hmerge with
  | internal hint => simp [endpointJoin, endpointView, hint]
  | same hint hname => simp [endpointJoin, endpointView, hint, hname]
  | named hint hname he hreal => simp [endpointJoin, endpointView, hint, hname, he, hreal]
  | placeholder hint hname he hreal => simp [endpointJoin, endpointView, hint, hname, he]

omit hS in
theorem endpointJoin_equivalent (h : endpointDefEquivalent e d = true) :
    endpointJoin (some (endpointView e)) d = endpointView e := by
  rw [endpointView_of_equivalent h]
  by_cases hint : isInternalEndpoint d.id = true
  · simp [endpointJoin, endpointView, hint]
  · simp [endpointJoin, endpointView, hint]

/-- Endpoint definitions are joined by their link-local flags. -/
theorem endpointJoining : endpointKind.Joining endpointView endpointJoin (EndpointOk S) S := by
  refine Joining.of_merges (fun _ => True) ?_ ?_ (fun hd hd' => (hS hd hd').mpr) (endpoint_joins hS)
    endpointDefEquivalent_refl endpointView_of_equivalent (fun _ => rfl) endpointJoin_equivalent endpointView_merge
    (fun _ _ _ _ => trivial) ?_
  · intro e d hid
    change (mergeEndpointMetadata e d).id = d.id
    unfold mergeEndpointMetadata endpointWinner
    split_ifs <;> first | exact hid | rfl
  · intro e d
    change (mergeEndpointMetadata e d).name = d.name ∨ (mergeEndpointMetadata e d).name = e.name
    unfold mergeEndpointMetadata endpointWinner
    split_ifs <;> simp
  · intro m d _ hid hd hok hfixed
    have hmerge := mergeEndpointMetadata_cases hid (hok.name m.name m.linkLocalOnly rfl d hd rfl)
    rw [← endpointView_merge hid hd hok] at hfixed
    refine ⟨m, rfl, ?_⟩
    change _ ∨ endpointDefEquivalent m (mergeEndpointMetadata m d) = true
    generalize mergeEndpointMetadata m d = m' at hmerge hfixed
    cases hmerge with
    | internal | placeholder => exact .inr (endpointDefEquivalent_refl m)
    | named _ hname => exact absurd (congrArg Prod.fst hfixed).symm hname
    | same =>
      have hflag : (m.linkLocalOnly || d.linkLocalOnly) = m.linkLocalOnly := congrArg Prod.snd hfixed
      simp [endpointDefEquivalent, descriptionsAgree, hflag]

end Endpoints

/-! ### Types -/

/-- What the network sees of a type definition. -/
structure TypeView where
  name : String
  element : MessageElement
  endpoints : Finset DataEndpoint
  reliable : ReliableMode
  priority : UInt8
  e2eEncryption : E2eEncryptionPolicy
deriving DecidableEq

def typeView (d : OwnedDataTypeDefinition) : TypeView :=
  ⟨d.name, d.element, d.endpoints.toFinset, d.reliable, d.priority, d.e2eEncryption⟩

/-- A definition adds its destinations and its priority. -/
def typeJoin (o : Option TypeView) (d : OwnedDataTypeDefinition) : TypeView :=
  match o with
  | none => typeView d
  | some v =>
    if isInternalDataType d.id then v
    else { v with
      endpoints := v.endpoints ∪ d.endpoints.toFinset
      priority := max v.priority d.priority }

/-- The definition can be joined to the type. -/
structure SameLayout (v : TypeView) (d : OwnedDataTypeDefinition) : Prop where
  name : v.name = d.name
  element : v.element = d.element
  reliable : v.reliable = d.reliable
  e2eEncryption : v.e2eEncryption = d.e2eEncryption

structure TypeOk (S : OwnedDataTypeDefinition → Prop) (k : UInt32) (o : Option TypeView) : Prop where
  internal : isInternalDataType k = true → o ≠ none
  accepts : ∀ v, o = some v → ∀ d, S d → d.id = k → v.name = d.name
  layout : ∀ v, o = some v → ∀ d, S d → d.id = k → isInternalDataType k = true ∨ SameLayout v d

theorem max_right_comm (a b c : UInt8) : max (max a b) c = max (max a c) b := by
  apply UInt8.toNat_inj.mp
  rw [UInt8.toNat_max, UInt8.toNat_max, UInt8.toNat_max, UInt8.toNat_max]
  omega

theorem max_max_self (a b : UInt8) : max (max a b) b = max a b := by
  apply UInt8.toNat_inj.mp
  rw [UInt8.toNat_max, UInt8.toNat_max]
  omega

theorem max_comm_u8 (a b : UInt8) : max a b = max b a := by
  apply UInt8.toNat_inj.mp
  rw [UInt8.toNat_max, UInt8.toNat_max]
  omega

theorem typeDefEquivalent_refl (a : OwnedDataTypeDefinition) : typeDefEquivalent a a = true := by
  simp [typeDefEquivalent, descriptionsAgree]

theorem typeView_of_equivalent {a b : OwnedDataTypeDefinition} (h : typeDefEquivalent a b = true) :
    typeView a = typeView b := by
  simp only [typeDefEquivalent, Bool.and_eq_true, beq_iff_eq] at h
  obtain ⟨⟨⟨⟨⟨⟨⟨_, hname⟩, _⟩, helement⟩, hendpoints⟩, hreliable⟩, hpriority⟩, he2e⟩ := h
  rw [typeView, typeView, hname, helement, hendpoints, hreliable, hpriority, he2e]

theorem mergeTypeMetadata_internal {e d : OwnedDataTypeDefinition} (hint : isInternalDataType d.id = true)
    (hid : e.id = d.id) : mergeTypeMetadata e d = e := by
  rw [mergeTypeMetadata, hid, if_pos hint]

theorem mergeTypeMetadata_layout {e d : OwnedDataTypeDefinition} (hint : isInternalDataType d.id = false)
    (hid : e.id = d.id) (h : SameLayout (typeView e) d) :
    mergeTypeMetadata e d = { e with
      endpoints := unionEndpoints e.endpoints d.endpoints
      priority := max e.priority d.priority } := by
  obtain ⟨hname, helement, hreliable, he2e⟩ := h
  rw [mergeTypeMetadata, if_neg (by simp [hid, hint]), if_neg]
  rintro (h | h | h | h | h)
  · exact h hid
  · exact h hname
  · exact h helement
  · exact h hreliable
  · exact h he2e

section Types

variable {S : OwnedDataTypeDefinition → Prop}
  (hname : ∀ {d d'}, S d → S d' → (d.id = d'.id ↔ d.name = d'.name))
  (hlayout : ∀ {d d'}, S d → S d' → d.id = d'.id → SameLayout (typeView d) d')

variable {k : UInt32}

theorem TypeOk.internal_none (h : TypeOk S k none) : isInternalDataType k = false := by
  cases hint : isInternalDataType k with
  | false => rfl
  | true => exact absurd rfl (h.internal hint)

variable {v : TypeView} {d : OwnedDataTypeDefinition}

theorem TypeOk.sameLayout (h : TypeOk S k (some v)) (hint : isInternalDataType k = false) (hd : S d) (hid : d.id = k) :
    SameLayout v d := by
  obtain hint' | hsame := h.layout v rfl d hd hid
  · cases hint.symm.trans hint'
  · exact hsame

theorem typeJoin_internal (hint : isInternalDataType d.id = true) : typeJoin (some v) d = v := if_pos hint

theorem typeJoin_layout (hint : isInternalDataType d.id = false) :
    typeJoin (some v) d = { v with
      endpoints := v.endpoints ∪ d.endpoints.toFinset
      priority := max v.priority d.priority } := if_neg (by simp [hint])

include hlayout

theorem type_joins (k : UInt32) : Absorbing (fun o d => some (typeJoin o d)) (TypeOk S k) fun d => S d ∧ d.id = k where
  keeps := by
    rintro o d hok ⟨hd, rfl⟩
    refine ⟨fun _ => by simp, ?_, ?_⟩
    · intro v hjoin d' hd' hid'
      cases Option.some.inj hjoin
      cases o with
      | none => exact (hlayout hd hd' hid'.symm).name
      | some v =>
        have hname := hok.accepts v rfl d' hd' hid'
        simp only [typeJoin]
        split
        · exact hname
        · exact hname
    intro v hjoin d' hd' hid'
    cases Option.some.inj hjoin
    cases o with
    | none => exact .inr (hlayout hd hd' hid'.symm)
    | some v =>
      cases hint : isInternalDataType d.id with
      | true => exact .inl rfl
      | false =>
        have hsame : SameLayout v d' := hok.sameLayout hint hd' hid'
        rw [typeJoin_layout hint]
        exact .inr ⟨hsame.name, hsame.element, hsame.reliable, hsame.e2eEncryption⟩
  comm := by
    rintro o d d' hok ⟨hd, rfl⟩ ⟨hd', hid'⟩
    cases o with
    | none =>
      have hint := hok.internal_none
      have hint' : isInternalDataType d'.id = false := by rw [hid', hint]
      obtain ⟨hname, helement, hreliable, he2e⟩ := hlayout hd' hd hid'
      rw [typeJoin_layout hint, typeJoin_layout hint']
      simp only [typeJoin, typeView] at hname helement hreliable he2e ⊢
      rw [Finset.union_comm, max_comm_u8, hname, helement, hreliable, he2e]
    | some v =>
      cases hint : isInternalDataType d.id with
      | true =>
        have hint' : isInternalDataType d'.id = true := by rw [hid', hint]
        simp only [typeJoin_internal hint, typeJoin_internal hint']
      | false =>
        have hint' : isInternalDataType d'.id = false := by rw [hid', hint]
        simp only [typeJoin_layout hint, typeJoin_layout hint', max_right_comm,
          Finset.union_right_comm]
  idem := by
    rintro o d hok ⟨hd, rfl⟩
    cases o with
    | none =>
      rw [typeJoin_layout hok.internal_none]
      simp only [typeJoin, typeView, Finset.union_self]
      rw [show max d.priority d.priority = d.priority from if_pos (UInt8.le_refl _)]
    | some v =>
      cases hint : isInternalDataType d.id with
      | true => simp only [typeJoin_internal hint]
      | false =>
        simp only [typeJoin_layout hint, max_max_self, Finset.union_assoc, Finset.union_self]

variable {e : OwnedDataTypeDefinition}

omit hlayout in
theorem typeView_merge (hid : e.id = d.id) (hd : S d) (hok : TypeOk S d.id (some (typeView e))) :
    typeView (mergeTypeMetadata e d) = typeJoin (some (typeView e)) d := by
  cases hint : isInternalDataType d.id with
  | true => rw [mergeTypeMetadata_internal hint hid, typeJoin_internal hint]
  | false =>
    have hsame : SameLayout (typeView e) d := hok.sameLayout hint hd rfl
    have hendpoints : (unionEndpoints e.endpoints d.endpoints).toFinset =
        e.endpoints.toFinset ∪ d.endpoints.toFinset := by
      ext x
      simp [mem_unionEndpoints]
    rw [mergeTypeMetadata_layout hint hid hsame, typeJoin_layout hint]
    simp only [typeView, hendpoints]

omit hlayout in
theorem typeJoin_equivalent (h : typeDefEquivalent e d = true) : typeJoin (some (typeView e)) d = typeView e := by
  rw [typeView_of_equivalent h]
  cases hint : isInternalDataType d.id with
  | true => exact typeJoin_internal hint
  | false =>
    rw [typeJoin_layout hint]
    simp only [typeView, Finset.union_self]
    rw [show max d.priority d.priority = d.priority from if_pos (UInt8.le_refl _)]

include hname in
/-- Type definitions are joined by their destinations and priorities. -/
theorem typeJoining : typeKind.Joining typeView typeJoin (TypeOk S) S := by
  refine Joining.of_merges (fun m => m.endpoints.Pairwise (· < ·)) ?_ ?_ (fun hd hd' => (hname hd hd').mpr)
    (type_joins hlayout) typeDefEquivalent_refl typeView_of_equivalent (fun _ => rfl) typeJoin_equivalent typeView_merge
    ?_ ?_
  · intro e d hid
    change (mergeTypeMetadata e d).id = d.id
    unfold mergeTypeMetadata typeWinner
    split_ifs <;> first | exact hid | rfl
  · intro e d
    change (mergeTypeMetadata e d).name = d.name ∨ (mergeTypeMetadata e d).name = e.name
    unfold mergeTypeMetadata typeWinner
    split_ifs <;> simp
  · intro e d hid hd hok hnew
    cases hint : isInternalDataType d.id with
    | true =>
      rw [show typeKind.mergeMetadata e d = e from mergeTypeMetadata_internal hint hid] at hnew
      exact absurd (typeDefEquivalent_refl e) hnew
    | false =>
      rw [show typeKind.mergeMetadata e d = _ from mergeTypeMetadata_layout hint hid (hok.sameLayout hint hd rfl)]
      exact unionEndpoints_strict _ _
  · intro m d hsorted hid hd hok hfixed
    refine ⟨m, rfl, .inr ?_⟩
    change typeDefEquivalent m (mergeTypeMetadata m d) = true
    cases hint : isInternalDataType d.id with
    | true =>
      rw [mergeTypeMetadata_internal hint hid]
      exact typeDefEquivalent_refl m
    | false =>
      rw [typeJoin_layout hint] at hfixed
      have hunion : m.endpoints.toFinset ∪ d.endpoints.toFinset = m.endpoints.toFinset :=
        congrArg TypeView.endpoints hfixed
      have hsub : d.endpoints ⊆ m.endpoints := fun x hx =>
        List.mem_toFinset.mp (Finset.union_eq_left.mp hunion (List.mem_toFinset.mpr hx))
      have hpriority : max m.priority d.priority = m.priority := congrArg TypeView.priority hfixed
      rw [mergeTypeMetadata_layout hint hid (hok.sameLayout hint hd rfl), unionEndpoints_of_subset hsorted hsub, hpriority]
      exact typeDefEquivalent_refl m

end Types

end SedsNet
