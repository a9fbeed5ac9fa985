import LivingDocs.Artifact.Store
import LivingDocs.Config.Basic
import LivingDocs.Proofs.JsonText
import LivingDocs.Proofs.Ordered

/-!
# What is kept on file is read back

Every value that is kept on file becomes a plain JSON value, and taking that value apart gives the
original one. Plain values are read back from their texts, so lists of entities, reports and
configurations are read back from the files that hold them. The only condition is that line
numbers fit in 64 bits.

## Main definitions

* `LivingDocs.Collation.Sources.Numbered`, `LivingDocs.Report.Numbered` — line numbers that can be
  kept on file.
* `LivingDocs.Artifact.ReadsBack` — the five lists of entities are read back.

## Main results

* `LivingDocs.Json.record?_ofMembers` — a record is taken apart into the values of its members.
* `LivingDocs.Component.ofJson?_toJson`, and the same for the other kinds of entities and of
  entries in a report — values are read back from their JSON values.
* `LivingDocs.Artifact.decode?_encode`, `LivingDocs.Collation.Sources.Numbered.readsBack` — lists of
  entities are read back.
* `LivingDocs.Report.Numbered.decode?_encode` — reports are read back.
* `LivingDocs.Config.parse?_toJson` — configurations are read back.
-/

set_option autoImplicit false

namespace LivingDocs

open Json

/-! ## Values of one shape -/

/-- What is read one by one is read as a list. -/
lemma mapM_map_eq_some_map {α β γ : Type} {write : α → β} {read : β → Option γ} {value : α → γ}
    {xs : List α} (h : ∀ x ∈ xs, read (write x) = some (value x)) :
    (xs.map write).mapM read = some (xs.map value) := by
  induction xs with
  | nil => rfl
  | cons x xs ih =>
    rw [List.map_cons, List.mapM_cons, h x List.mem_cons_self,
      ih fun y hy => h y (List.mem_cons_of_mem x hy)]
    rfl

/-- What is read back one by one is read back as a list. -/
lemma mapM_map_eq_some {α β : Type} {write : α → β} {read : β → Option α} {xs : List α}
    (h : ∀ x ∈ xs, read (write x) = some x) : (xs.map write).mapM read = some xs := by
  have hmap := mapM_map_eq_some_map h
  rwa [List.map_id'] at hmap

namespace Json

@[simp] lemma text?_ofString (s : String) : (ofString s).text? = some s := rfl

@[simp] lemma members?_ofMembers (members : List (String × Json)) :
    (ofMembers members).members? = some members :=
  mapM_map_eq_some fun _ _ => rfl

@[simp] lemma texts?_ofStrings (texts : List String) : (ofStrings texts).texts? = some texts :=
  mapM_map_eq_some fun _ _ => rfl

@[simp] lemma textSet?_ofStrings (texts : OrderedSet String) :
    (ofStrings texts.toList).textSet? = some texts := by
  simp [textSet?]

@[simp] lemma items?_array (items : List Json) : (array items).items? = some items := rfl

/-- The fields of a record are looked up among its members. -/
@[simp] lemma fields?_ofMembers (names : List (List String)) (members : List (String × Json)) :
    (ofMembers members).fields? names = names.mapM fun n => field? n members := by
  have h := members?_ofMembers members
  rw [ofMembers] at h ⊢
  simp [fields?, h]

/-- Under a name that no other member has stands the value of its member. -/
lemma field?_of_mem {members : List (String × Json)} (hnodup : (members.map Prod.fst).Nodup)
    {m : String × Json} (hm : m ∈ members) : field? [m.1] members = some (some m.2) := by
  induction members with
  | nil => cases hm
  | cons first rest ih =>
    obtain ⟨hfirst, hrest⟩ := List.nodup_cons.mp hnodup
    rcases List.mem_cons.mp hm with rfl | hm
    · have hnone : rest.filter (fun other => [m.1].contains other.1) = [] := by
        rw [List.filter_eq_nil_iff]
        intro other hother hname
        have heq : other.1 = m.1 := by simpa using hname
        exact hfirst (heq ▸ List.mem_map_of_mem hother)
      rw [field?, List.filter_cons_of_pos (by simp), hnone]
    · have hne : first.1 ≠ m.1 := fun heq => hfirst (heq ▸ List.mem_map_of_mem hm)
      rw [field?, List.filter_cons_of_neg (by simpa using hne)]
      exact ih hrest hm

/-- **The fields of a record are the values of its members**, if these have different names. -/
lemma record?_ofMembers {members : List (String × Json)} {names : List String}
    (hnames : members.map Prod.fst = names) (hnodup : names.Nodup) :
    (ofMembers members).record? names = some (members.map Prod.snd) := by
  subst hnames
  have hfields : (members.map fun m => [m.1]).mapM (fun n => field? n members) =
      some (members.map fun m => some m.2) :=
    mapM_map_eq_some_map fun _ hm => field?_of_mem hnodup hm
  have hvalues : (members.map fun m => some m.2).mapM id = some (members.map Prod.snd) :=
    mapM_map_eq_some_map fun _ _ => rfl
  simp only [record?, fields?_ofMembers, List.map_map, Function.comp_def, hfields,
    Option.bind_some, hvalues]

lemma plain_ofStrings {depth : Nat} (texts : List String) :
    Plain (depth + 1) (ofStrings texts) := by
  refine .array fun item hitem => ?_
  obtain ⟨s, -, rfl⟩ := List.mem_map.mp hitem
  exact .ofString

/-- An array of values of one kind. -/
lemma plain_array_map {α : Type} {toJson : α → Json} {xs : List α} {depth : Nat}
    (h : ∀ x ∈ xs, Plain depth (toJson x)) : Plain (depth + 1) (.array (xs.map toJson)) := by
  refine .array fun item hitem => ?_
  obtain ⟨x, hx, rfl⟩ := List.mem_map.mp hitem
  exact h x hx

end Json

/-! ## Entities -/

namespace Location

/-- A number of a line that can be kept is read back. -/
lemma line?_ofNat {n : Nat} (h : n ≤ maxLine) : line? (Json.ofNat n) = some n := by
  simp [line?, nat?, Json.ofNat, h]

/-- **The place of an entity is read back** from behind members with other names. -/
lemma ofMembers?_append {location : Location} (h : location.line ≤ maxLine)
    (members : List (String × Json)) (hmembers : ∀ m ∈ members, m.1 ≠ "file" ∧ m.1 ≠ "line") :
    ofMembers? (members ++ location.toMembers) = some location := by
  have hother {name : String} (hname : ∀ m ∈ members, m.1 ≠ name) :
      field? [name] (members ++ location.toMembers) = field? [name] location.toMembers := by
    have hnone : members.filter (fun m => [name].contains m.1) = [] := by
      simpa using fun key value hm => hname (key, value) hm
    simp only [field?, List.filter_append, hnone, List.nil_append]
  have hfile := hother fun m hm => (hmembers m hm).1
  have hline := hother fun m hm => (hmembers m hm).2
  obtain ⟨file, line⟩ := location
  rw [ofMembers?, required?, hfile, hline]
  cases file <;>
    simp [toMembers, field?, file?, line?_ofNat h, ofString, text?]

lemma plain_of_mem_toMembers {location : Location} (h : location.line ≤ maxLine) {depth : Nat} :
    ∀ m ∈ location.toMembers, Plain depth m.2 := by
  obtain ⟨file, line⟩ := location
  have hline : Plain depth (Json.ofNat line) := .ofNat h
  cases file with
  | none => simpa [toMembers] using ⟨.null, hline⟩
  | some file => simpa [toMembers] using ⟨.ofString, hline⟩

end Location

@[simp] lemma ExampleKind.ofJson?_toJson (kind : ExampleKind) :
    ofJson? kind.toJson = some kind := by
  cases kind <;> rfl

namespace Component

/-- A component is read back from its JSON value. -/
lemma ofJson?_toJson {c : Component} (h : c.location.line ≤ Location.maxLine) :
    ofJson? c.toJson = some c := by
  simp only [ofJson?, toJson, members?_ofMembers, Option.bind_eq_bind, Option.bind_some]
  rw [Location.ofMembers?_append h _ (by simp)]
  simp [required?, field?, Location.toMembers]

lemma plain_toJson {c : Component} (h : c.location.line ≤ Location.maxLine) {depth : Nat} :
    Plain (depth + 2) c.toJson := by
  refine .ofMembers (List.forall_mem_append.mpr ⟨?_, Location.plain_of_mem_toMembers h⟩)
  simp only [List.forall_mem_cons]
  exact ⟨.ofString, .ofString, plain_ofStrings _, plain_ofStrings _, List.forall_mem_nil _⟩

end Component

namespace Example

/-- An example is read back from its JSON value. -/
lemma ofJson?_toJson {e : Example} (h : e.location.line ≤ Location.maxLine) :
    ofJson? e.toJson = some e := by
  simp only [ofJson?, toJson, members?_ofMembers, Option.bind_eq_bind, Option.bind_some]
  rw [Location.ofMembers?_append h _ (by simp)]
  simp [required?, field?, Location.toMembers]

lemma plain_toJson {e : Example} (h : e.location.line ≤ Location.maxLine) {depth : Nat} :
    Plain (depth + 2) e.toJson := by
  refine .ofMembers (List.forall_mem_append.mpr ⟨?_, Location.plain_of_mem_toMembers h⟩)
  simp only [List.forall_mem_cons]
  exact ⟨.ofString, .ofString, plain_ofStrings _, plain_ofStrings _, .ofString,
    List.forall_mem_nil _⟩

end Example

namespace Variable

/-- A variable is read back from its JSON value. -/
lemma ofJson?_toJson {v : Variable} (h : v.location.line ≤ Location.maxLine) :
    ofJson? v.toJson = some v := by
  simp only [ofJson?, toJson, members?_ofMembers, Option.bind_eq_bind, Option.bind_some]
  rw [Location.ofMembers?_append h _ (by simp)]
  simp [required?, field?, Location.toMembers]

lemma plain_toJson {v : Variable} (h : v.location.line ≤ Location.maxLine) {depth : Nat} :
    Plain (depth + 2) v.toJson := by
  refine .ofMembers (List.forall_mem_append.mpr ⟨?_, Location.plain_of_mem_toMembers h⟩)
  simp only [List.forall_mem_cons]
  exact ⟨.ofString, plain_ofStrings _, List.forall_mem_nil _⟩

end Variable

namespace Crosscut

/-- A crosscut is read back from its JSON value. -/
lemma ofJson?_toJson {c : Crosscut} (h : c.location.line ≤ Location.maxLine) :
    ofJson? c.toJson = some c := by
  have hlocation : Location.ofMembers? (("name", ofString c.name) :: c.location.toMembers) =
      some c.location :=
    Location.ofMembers?_append h [("name", ofString c.name)] (by simp)
  simp only [ofJson?, toJson, members?_ofMembers, Option.bind_eq_bind, Option.bind_some,
    hlocation]
  simp [required?, field?, Location.toMembers]

lemma plain_toJson {c : Crosscut} (h : c.location.line ≤ Location.maxLine) {depth : Nat} :
    Plain (depth + 2) c.toJson :=
  .ofMembers (List.forall_mem_cons.mpr ⟨.ofString, Location.plain_of_mem_toMembers h⟩)

end Crosscut

namespace Journey

/-- A journey is read back from its JSON value. -/
lemma ofJson?_toJson {j : Journey} (h : j.location.line ≤ Location.maxLine) :
    ofJson? j.toJson = some j := by
  simp only [ofJson?, toJson, members?_ofMembers, Option.bind_eq_bind, Option.bind_some]
  rw [Location.ofMembers?_append h _ (by simp)]
  simp [required?, field?, Location.toMembers, desc?]

lemma plain_toJson {j : Journey} (h : j.location.line ≤ Location.maxLine) {depth : Nat} :
    Plain (depth + 2) j.toJson := by
  refine .ofMembers (List.forall_mem_append.mpr ⟨?_, Location.plain_of_mem_toMembers h⟩)
  simp only [List.forall_mem_cons]
  exact ⟨.ofString, .ofString, List.forall_mem_nil _⟩

end Journey

namespace Artifact

/-- A plain value is read back from the content of a file. -/
lemma parse?_content {depth : Nat} {value : Json} (h : Plain depth value) :
    parse? (content value) = some value :=
  h.parse?_pretty_line

/-- **A list of entities is read back from a file**, if each of them is read back and none is
nested too deep. -/
lemma decode?_encode {α : Type} {toJson : α → Json} {ofJson? : Json → Option α}
    {entities : List α} {depth : Nat} (hdepth : depth + 1 ≤ maxDepth)
    (hplain : ∀ e ∈ entities, Plain depth (toJson e))
    (hread : ∀ e ∈ entities, ofJson? (toJson e) = some e) :
    decode? ofJson? (encode toJson entities) = some entities := by
  have harray := plain_array_map hplain
  have hreadable : (Json.array (entities.map toJson)).isReadable 0 = true :=
    harray.isReadable (by omega)
  rw [decode?, encode, parse?_content harray]
  simp [hreadable, mapM_map_eq_some hread]

end Artifact

/-- **Every line that the entities name can be kept on file.** -/
structure Collation.Sources.Numbered (sources : Sources) : Prop where
  components : ∀ c ∈ sources.components, c.location.line ≤ Location.maxLine
  crosscuts : ∀ c ∈ sources.crosscuts, c.location.line ≤ Location.maxLine
  journeys : ∀ j ∈ sources.journeys, j.location.line ≤ Location.maxLine
  examples : ∀ e ∈ sources.examples, e.location.line ≤ Location.maxLine
  vars : ∀ v ∈ sources.vars, v.location.line ≤ Location.maxLine

/-- **The entities are read back** from the files that hold them. -/
structure Artifact.ReadsBack (sources : Collation.Sources) : Prop where
  components : decode? Component.ofJson? (encode Component.toJson sources.components) =
    some sources.components
  crosscuts : decode? Crosscut.ofJson? (encode Crosscut.toJson sources.crosscuts) =
    some sources.crosscuts
  journeys : decode? Journey.ofJson? (encode Journey.toJson sources.journeys) =
    some sources.journeys
  examples : decode? Example.ofJson? (encode Example.toJson sources.examples) =
    some sources.examples
  vars : decode? Variable.ofJson? (encode Variable.toJson sources.vars) = some sources.vars

/-- **Entities are read back if their lines can be kept on file.** -/
lemma Collation.Sources.Numbered.readsBack {sources : Collation.Sources} (h : sources.Numbered) :
    Artifact.ReadsBack sources where
  components := Artifact.decode?_encode (by decide : 2 + 1 ≤ maxDepth)
    (fun c hc => Component.plain_toJson (h.components c hc))
    fun c hc => Component.ofJson?_toJson (h.components c hc)
  crosscuts := Artifact.decode?_encode (by decide : 2 + 1 ≤ maxDepth)
    (fun c hc => Crosscut.plain_toJson (h.crosscuts c hc))
    fun c hc => Crosscut.ofJson?_toJson (h.crosscuts c hc)
  journeys := Artifact.decode?_encode (by decide : 2 + 1 ≤ maxDepth)
    (fun j hj => Journey.plain_toJson (h.journeys j hj))
    fun j hj => Journey.ofJson?_toJson (h.journeys j hj)
  examples := Artifact.decode?_encode (by decide : 2 + 1 ≤ maxDepth)
    (fun e he => Example.plain_toJson (h.examples e he))
    fun e he => Example.ofJson?_toJson (h.examples e he)
  vars := Artifact.decode?_encode (by decide : 2 + 1 ≤ maxDepth)
    (fun v hv => Variable.plain_toJson (h.vars v hv))
    fun v hv => Variable.ofJson?_toJson (h.vars v hv)

/-! ## Reports -/

namespace Report

lemma Place.plain_of_mem_toMembers {place : Place} (h : place.line ≤ Location.maxLine)
    {depth : Nat} : ∀ m ∈ place.toMembers, Plain depth m.2 := by
  have hline : Plain depth (Json.ofNat place.line) := .ofNat h
  simpa [toMembers] using ⟨.ofString, hline⟩

lemma Place.ofFields?_ofString_ofNat {file : String} {line : Nat}
    (h : line ≤ Location.maxLine) :
    ofFields? (ofString file) (Json.ofNat line) = some ⟨file, line⟩ := by
  simp [ofFields?, Location.line?_ofNat h]

lemma Place.ofJson?_toJson {place : Place} (h : place.line ≤ Location.maxLine) :
    ofJson? place.toJson = some place := by
  rw [ofJson?, toJson, record?_ofMembers (by rfl) (by decide)]
  simp [toMembers, ofFields?_ofString_ofNat h]

lemma Place.plain_toJson {place : Place} (h : place.line ≤ Location.maxLine) {depth : Nat} :
    Plain (depth + 1) place.toJson :=
  .ofMembers (plain_of_mem_toMembers h)

lemma Category.plain_toJson (category : Category) {depth : Nat} :
    Plain (depth + 1) category.toJson := by
  cases category <;> refine .ofMembers ?_ <;> simp only [List.forall_mem_cons]
  · exact ⟨.ofString, .ofString, .ofString, List.forall_mem_nil _⟩
  · exact ⟨.ofString, .ofString, List.forall_mem_nil _⟩

lemma Category.ofJson?_ofMembers {members : List (String × Json)}
    (h : (ofMembers members).isReadable level = true) : ofJson? (ofMembers members) =
      ((required? "kind" members).bind text?).bind fun tag => ofMembers? tag members := by
  have hmembers := members?_ofMembers members
  rw [Json.ofMembers] at h hmembers ⊢
  simp [ofJson?, h, hmembers, Option.bind_assoc]

lemma Category.ofJson?_toJson (category : Category) : ofJson? category.toJson = some category := by
  have hreadable : category.toJson.isReadable level = true :=
    (plain_toJson category : Plain (0 + 1) _).isReadable (by decide)
  cases category with
  | feature owner name =>
    rw [toJson, ofJson?_ofMembers hreadable]
    simp [required?, field?, ofMembers?, ofItems?]
  | journey name =>
    rw [toJson, ofJson?_ofMembers hreadable]
    simp [required?, field?, ofMembers?, ofItems?]

@[simp] lemma bindingsOfJson?_bindingsToJson (bindings : OrderedMap String String) :
    bindingsOfJson? (bindingsToJson bindings) = some bindings := by
  have hpairs : (bindings.toList.map fun m => (m.1, ofString m.2)).mapM
      (fun m => m.2.text?.map fun text => (m.1, text)) = some bindings.toList :=
    mapM_map_eq_some fun _ _ => rfl
  simp [bindingsOfJson?, bindingsToJson, hpairs, OrderedMap.ofList_toList]

lemma plain_bindingsToJson (bindings : OrderedMap String String) {depth : Nat} :
    Plain (depth + 1) (bindingsToJson bindings) := by
  refine .ofMembers fun m hm => ?_
  obtain ⟨pair, -, rfl⟩ := List.mem_map.mp hm
  exact .ofString

namespace ComponentEntry

lemma ofJson?_toJson {c : ComponentEntry} (h : c.place.line ≤ Location.maxLine) :
    ofJson? c.toJson = some c := by
  rw [ofJson?, toJson, record?_ofMembers (by rfl) (by decide)]
  simp [Place.toMembers, Place.ofFields?_ofString_ofNat h]

lemma plain_toJson {c : ComponentEntry} (h : c.place.line ≤ Location.maxLine) {depth : Nat} :
    Plain (depth + 2) c.toJson := by
  refine .ofMembers (List.forall_mem_append.mpr ⟨?_, Place.plain_of_mem_toMembers h⟩)
  simp only [List.forall_mem_cons]
  exact ⟨.ofString, .ofString, plain_ofStrings _, plain_ofStrings _, List.forall_mem_nil _⟩

end ComponentEntry

namespace ExampleEntry

lemma ofJson?_toJson {e : ExampleEntry} (h : ∀ place ∈ e.places, place.line ≤ Location.maxLine) :
    ofJson? e.toJson = some e := by
  have hplaces : (e.places.map Place.toJson).mapM Place.ofJson? = some e.places :=
    mapM_map_eq_some fun place hplace => Place.ofJson?_toJson (h place hplace)
  rw [ofJson?, toJson, record?_ofMembers (by rfl) (by decide)]
  simp [Category.ofJson?_toJson, hplaces]

lemma plain_toJson {e : ExampleEntry} (h : ∀ place ∈ e.places, place.line ≤ Location.maxLine)
    {depth : Nat} : Plain (depth + 3) e.toJson := by
  refine .ofMembers ?_
  simp only [List.forall_mem_cons]
  exact ⟨Category.plain_toJson _, .ofString, plain_bindingsToJson _, plain_ofStrings _, .ofString,
    plain_array_map fun place hplace => Place.plain_toJson (h place hplace), List.forall_mem_nil _⟩

end ExampleEntry

namespace CrosscutEntry

lemma ofJson?_toJson {c : CrosscutEntry} (h : c.place.line ≤ Location.maxLine) :
    ofJson? c.toJson = some c := by
  rw [ofJson?, toJson, record?_ofMembers (by rfl) (by decide)]
  simp [Place.toMembers, Place.ofFields?_ofString_ofNat h]

lemma plain_toJson {c : CrosscutEntry} (h : c.place.line ≤ Location.maxLine) {depth : Nat} :
    Plain (depth + 1) c.toJson :=
  .ofMembers (List.forall_mem_cons.mpr ⟨.ofString, Place.plain_of_mem_toMembers h⟩)

end CrosscutEntry

namespace JourneyEntry

lemma ofJson?_toJson {j : JourneyEntry} (h : j.place.line ≤ Location.maxLine) :
    ofJson? j.toJson = some j := by
  rw [ofJson?, toJson, record?_ofMembers (by rfl) (by decide)]
  simp [Place.toMembers, Place.ofFields?_ofString_ofNat h]

lemma plain_toJson {j : JourneyEntry} (h : j.place.line ≤ Location.maxLine) {depth : Nat} :
    Plain (depth + 1) j.toJson := by
  refine .ofMembers (List.forall_mem_append.mpr ⟨?_, Place.plain_of_mem_toMembers h⟩)
  simp only [List.forall_mem_cons]
  exact ⟨.ofString, .ofString, List.forall_mem_nil _⟩

end JourneyEntry

namespace VariableEntry

lemma ofJson?_toJson {v : VariableEntry} (h : v.place.line ≤ Location.maxLine) :
    ofJson? v.toJson = some v := by
  rw [ofJson?, toJson, record?_ofMembers (by rfl) (by decide)]
  simp [Place.toMembers, Place.ofFields?_ofString_ofNat h]

lemma plain_toJson {v : VariableEntry} (h : v.place.line ≤ Location.maxLine) {depth : Nat} :
    Plain (depth + 2) v.toJson := by
  refine .ofMembers (List.forall_mem_append.mpr ⟨?_, Place.plain_of_mem_toMembers h⟩)
  simp only [List.forall_mem_cons]
  exact ⟨.ofString, plain_ofStrings _, List.forall_mem_nil _⟩

end VariableEntry

/-- **Every line that a report names can be kept on file.** -/
structure Numbered (report : Report) : Prop where
  components : ∀ c ∈ report.components, c.place.line ≤ Location.maxLine
  examples : ∀ e ∈ report.examples, ∀ place ∈ e.places, place.line ≤ Location.maxLine
  crosscuts : ∀ c ∈ report.crosscuts, c.place.line ≤ Location.maxLine
  journeys : ∀ j ∈ report.journeys, j.place.line ≤ Location.maxLine
  vars : ∀ v ∈ report.vars, v.place.line ≤ Location.maxLine

lemma Numbered.ofJson?_toJson {report : Report} (h : report.Numbered) :
    ofJson? report.toJson = some report := by
  have hcomponents := mapM_map_eq_some fun c hc => ComponentEntry.ofJson?_toJson (h.components c hc)
  have hexamples := mapM_map_eq_some fun e he => ExampleEntry.ofJson?_toJson (h.examples e he)
  have hcrosscuts := mapM_map_eq_some fun c hc => CrosscutEntry.ofJson?_toJson (h.crosscuts c hc)
  have hjourneys := mapM_map_eq_some fun j hj => JourneyEntry.ofJson?_toJson (h.journeys j hj)
  have hvars := mapM_map_eq_some fun v hv => VariableEntry.ofJson?_toJson (h.vars v hv)
  rw [ofJson?, toJson, record?_ofMembers (by rfl) (by decide)]
  simp [hcomponents, hexamples, hcrosscuts, hjourneys, hvars]

lemma Numbered.plain_toJson {report : Report} (h : report.Numbered) : Plain 5 report.toJson := by
  refine .ofMembers ?_
  simp only [List.forall_mem_cons]
  exact ⟨.ofString,
    plain_array_map fun c hc => ComponentEntry.plain_toJson (h.components c hc),
    plain_array_map fun e he => ExampleEntry.plain_toJson (h.examples e he),
    plain_array_map fun c hc => CrosscutEntry.plain_toJson (h.crosscuts c hc),
    plain_array_map fun j hj => JourneyEntry.plain_toJson (h.journeys j hj),
    plain_array_map fun v hv => VariableEntry.plain_toJson (h.vars v hv),
    List.forall_mem_nil _⟩

/-- **A report is read back from a file.** -/
lemma Numbered.decode?_encode {report : Report} (h : report.Numbered) :
    decode? report.encode = some report := by
  rw [decode?, encode, Artifact.parse?_content h.plain_toJson]
  exact h.ofJson?_toJson

end Report

/-! ## Configurations -/

namespace Config

lemma ofJson?_toJson (config : Config) : ofJson? config.toJson = some config := by
  obtain ⟨app, exclude, readGitignore, scanNonTests, scanExtensionless, outputDir, keywordPrefix⟩ :=
    config
  have hexclude := texts?_ofStrings exclude
  rw [ofStrings] at hexclude
  cases app <;>
    simp [ofJson?, toJson, fieldNames, field?, setting?, name?, default, hexclude, bool?, ofString,
      text?]

lemma plain_toJson (config : Config) : Plain 2 config.toJson := by
  refine .ofMembers (List.forall_mem_append.mpr ⟨?_, ?_⟩)
  · cases config.app <;> simp only [List.forall_mem_cons]
    · exact List.forall_mem_nil _
    · exact ⟨.ofString, List.forall_mem_nil _⟩
  · simp only [List.forall_mem_cons]
    exact ⟨plain_ofStrings _, .bool, .bool, .bool, .ofString, .ofString, List.forall_mem_nil _⟩

/-- **A configuration is read back from its text**, and from a file that ends with a line feed. -/
lemma parse?_toJson (config : Config) : parse? config.toJson.pretty = some config ∧
    parse? (Artifact.content config.toJson) = some config := by
  have hplain := plain_toJson config
  rw [parse?, parse?, hplain.parse?_pretty, Artifact.parse?_content hplain]
  exact ⟨ofJson?_toJson config, ofJson?_toJson config⟩

end Config

end LivingDocs
