import EventForge.Java.Generator
import EventForge.Proofs.Document.RoundTrip
import EventForge.Proofs.Java.KeptFields
import EventForge.Proofs.Java.Parts
import EventForge.Proofs.Java.PatternNames
import EventForge.Proofs.Model
import Mathlib.Data.List.Perm.Basic

/-!
# The members of a class

The fields, accessors and pattern constants of a class get their names from the entries of a map,
whose names differ. Different entries can still lead to one member: names lose their blanks, fields
that are reserved words get an underscore, accessors start the name of the field in upper case, and
constants write all of it in upper case. Members have names of their own exactly when no two entries
of the class are made the same in this way.
-/

namespace EventForge.Java

/-- The escape of a reserved word is spelled like the other name. -/
def Escapes (a b : String) : Prop :=
  isReserved (Text.compact a) ∧ Text.compact b = Text.compact a ++ "_"

/-- The names are spelled alike without blanks, or one like the escape of the other. -/
def SameField (a b : String) : Prop := Text.compact a = Text.compact b ∨ Escapes a b ∨ Escapes b a

theorem isReserved_escape {word : String} (h : isReserved word) :
    isReserved (word ++ "_") = false := by
  have hall : ∀ w ∈ reservedWords, isReserved (w ++ "_") = false := by decide +kernel
  exact hall word (by simpa [isReserved] using h)

theorem fieldName_eq_iff {a b : String} : fieldName a = fieldName b ↔ SameField a b := by
  rw [fieldName, fieldName, safeName, safeName, SameField, Escapes, Escapes]
  cases ha : isReserved (Text.compact a) <;> cases hb : isReserved (Text.compact b)
  · simp
  · have hne : Text.compact a ≠ Text.compact b := fun h => by simp [h, hb] at ha
    simp [hne]
  · have hne : Text.compact a ≠ Text.compact b := fun h => by simp [h, hb] at ha
    simp [hne, eq_comm]
  · have hne : Text.compact b ≠ Text.compact a ++ "_" := fun h => by
      simp [h, isReserved_escape ha] at hb
    have hne' : Text.compact a ≠ Text.compact b ++ "_" := fun h => by
      simp [h, isReserved_escape hb] at ha
    simp [hne, hne', String.append_left_inj]

/-- The name of a field as it stands in its accessors. -/
def accessorStem (entry : String) : String := Text.capitalizeFirst (fieldName entry)

namespace ClassDecl

def getters (c : ClassDecl) : List Method := c.params.map getter

def setters (c : ClassDecl) : List Method := if c.isMutable then c.params.map setter else []

/-- The accessors of a class are its getters and its setters. -/
theorem accessors_perm (c : ClassDecl) :
    (c.params.flatMap c.accessors).Perm (c.getters ++ c.setters) := by
  rw [getters, setters]
  split
  · next hmutable =>
    have hboth : c.accessors = fun p => getter p :: [setter p] := by
      funext p
      rw [accessors, if_pos hmutable]
    rw [hboth, List.map_eq_flatMap (f := setter)]
    exact (List.map_append_flatMap_perm _ _ _).symm
  · next hmutable =>
    have hone : c.accessors = fun p => [getter p] := by
      funext p
      rw [accessors, if_neg hmutable]
    rw [hone, List.append_nil, List.map_eq_flatMap]

end ClassDecl

/-- The function tells the names apart. -/
def Separates {α : Type} (f : String → α) (names : List String) : Prop :=
  ∀ a ∈ names, ∀ b ∈ names, f a = f b → a = b

theorem nodup_map_append_iff {first : String} {f : String → String} {names : List String}
    (h : names.Nodup) : (names.map fun a => first ++ f a).Nodup ↔ Separates f names := by
  rw [List.nodup_map_iff_inj_on h]
  simp only [String.append_right_inj]
  rfl

/-- The names of the entries that become fields. -/
def ClassSource.keptNames (m : Model) (s : ClassSource) : List String :=
  (s.keptEntries m).map Prod.fst

/-- The constants of the field that an entry becomes have the names of its patterns. -/
theorem KeptFor.names_constants {m : Model} {e : String × TypeTree} {f : KeptField}
    (h : KeptFor m e f) : f.constants.map Constant.name = constantNames e := by
  rw [constantNames, KeptField.constants, List.map_map, h.patterns, h.name, Dict.keys,
    List.map_map, List.length_map]
  rfl

section Draft

variable {m : Model} {source : ClassSource} {d : ClassDraft} (mutability : Mutability)

theorem names_fields (h : DraftOf m source d) :
    (d.declaration source mutability).fields.map FieldDecl.name =
      (source.keptNames m).map fieldName := by
  rw [ClassDraft.declaration, ClassSource.keptNames, List.map_map, List.map_map]
  exact (Document.map_eq_map_of_forall₂ (h.fields.imp fun e f hf => hf.name.symm)).symm

/-- The names of methods that are made from each field. -/
theorem names_accessors (h : DraftOf m source d) {verb : String} {make : Param → Method}
    (hmake : ∀ p, (make p).name = accessor verb p.name) :
    ((d.declaration source mutability).params.map make).map Method.name =
      (source.keptNames m).map fun a => verb ++ accessorStem a := by
  have hnames := congrArg (List.map (accessor verb)) (names_fields mutability h)
  rw [List.map_map, List.map_map] at hnames
  rw [ClassDecl.params, List.map_map, List.map_map]
  refine Eq.trans ?_ hnames
  exact List.map_congr_left fun f _ => hmake _

theorem names_constants (h : DraftOf m source d) :
    (d.declaration source mutability).constants.map Constant.name =
      (source.keptEntries m).flatMap constantNames := by
  rw [ClassDraft.declaration, List.map_flatMap, List.flatMap_def, List.flatMap_def]
  exact congrArg List.flatten
    (Document.map_eq_map_of_forall₂ (h.fields.imp fun _ _ hf => hf.names_constants.symm)).symm

theorem nodup_fields_iff (h : DraftOf m source d) (hkeys : (source.keptNames m).Nodup) :
    ((d.declaration source mutability).fields.map FieldDecl.name).Nodup ↔
      ∀ a ∈ source.keptNames m, ∀ b ∈ source.keptNames m, SameField a b → a = b := by
  rw [names_fields mutability h, List.nodup_map_iff_inj_on hkeys]
  simp only [fieldName_eq_iff]

theorem nodup_getters_iff (h : DraftOf m source d) (hkeys : (source.keptNames m).Nodup) :
    ((d.declaration source mutability).getters.map Method.name).Nodup ↔
      Separates accessorStem (source.keptNames m) := by
  rw [ClassDecl.getters, names_accessors mutability h fun _ => rfl, nodup_map_append_iff hkeys]

theorem nodup_setters_iff (h : DraftOf m source d) (hkeys : (source.keptNames m).Nodup) :
    ((d.declaration source mutability).setters.map Method.name).Nodup ↔
      (mutability = .mutable → Separates accessorStem (source.keptNames m)) := by
  have hmutable : (d.declaration source mutability).isMutable = true ↔ mutability = .mutable :=
    decide_eq_true_iff
  rw [ClassDecl.setters]
  split
  · next hm =>
    rw [names_accessors mutability h fun _ => rfl, nodup_map_append_iff hkeys,
      forall_prop_of_true (hmutable.1 hm)]
  · next hm => simp [mt hmutable.2 hm]

/-- Constants differ when no two fields share one; those of one field differ by themselves. -/
theorem nodup_constants_iff (h : DraftOf m source d) (hkeys : (source.keptNames m).Nodup)
    (hown : ∀ e ∈ source.keptEntries m, (constantNames e).Nodup) :
    ((d.declaration source mutability).constants.map Constant.name).Nodup ↔
      ∀ e ∈ source.keptEntries m, ∀ e' ∈ source.keptEntries m, ∀ n ∈ constantNames e,
        n ∈ constantNames e' → e.1 = e'.1 := by
  have hinj : ∀ e ∈ source.keptEntries m, ∀ e' ∈ source.keptEntries m, e.1 = e'.1 → e = e' :=
    fun _ he _ he' => List.inj_on_of_nodup_map hkeys he he'
  rw [names_constants mutability h, nodup_flatMap_iff hkeys.of_map hown]
  constructor
  · exact fun hshared e he e' he' n hn hn' => congrArg Prod.fst (hshared e he e' he' n hn hn')
  · exact fun hshared e he e' he' n hn hn' => hinj e he e' he' (hshared e he e' he' n hn hn')

end Draft

theorem exists_rest_of_mem_constantNames {e : String × TypeTree} {n : String}
    (hn : n ∈ constantNames e) :
    ∃ rest, n.toList = (Text.upper (fieldName e.1)).toList ++ '_' :: rest := by
  obtain ⟨node, -, rfl⟩ := List.mem_map.1 hn
  split
  · simp [patternConstant, String.toList_append]
  · simp [patternConstant, String.toList_append]

/-- Fields without underscores that share a constant have the same name in upper case. -/
theorem upper_eq_of_mem_constantNames {e e' : String × TypeTree} {n : String}
    (hplain : '_' ∉ (fieldName e.1).toList) (hplain' : '_' ∉ (fieldName e'.1).toList)
    (hn : n ∈ constantNames e) (hn' : n ∈ constantNames e') :
    Text.upper (fieldName e.1) = Text.upper (fieldName e'.1) := by
  have hcut : ∀ {field : String} {rest : List Char}, '_' ∉ field.toList →
      ((Text.upper field).toList ++ '_' :: rest).takeWhile (· ≠ '_') =
        (Text.upper field).toList := by
    intro field rest hfield
    have hall : ∀ c ∈ (Text.upper field).toList, (decide (c ≠ '_')) = true := by
      intro c hc
      have hne : c ≠ '_' := fun h => hfield (Text.underscore_mem_upper (h ▸ hc))
      simpa using hne
    rw [List.takeWhile_append_of_pos hall, List.takeWhile_cons_of_neg (by simp), List.append_nil]
  obtain ⟨rest, hrest⟩ := exists_rest_of_mem_constantNames hn
  obtain ⟨rest', hrest'⟩ := exists_rest_of_mem_constantNames hn'
  rw [← String.toList_inj, ← hcut hplain, ← hrest, hrest', hcut hplain']

section Source

variable {m : Model} {source : ClassSource}

/-- The tree has the names derived from some name. -/
def HasDerivedNames (t : TypeTree) : Prop := ∃ name nested, Document.NamedFrom name nested t

theorem exists_mem_handedDown {t c : TypeTree} (hc : c ∈ walked t) :
    ∃ name, (name, c) ∈ Document.handedDown t := by
  cases t with
  | object l entries =>
    obtain ⟨e, he, rfl⟩ := List.mem_map.1 hc
    exact ⟨l.name, List.mem_map.2 ⟨e, he, rfl⟩⟩
  | wrapper l kind child =>
    cases kind with
    | not => cases hc
    | _ =>
      obtain rfl := List.mem_singleton.1 hc
      exact ⟨l.name, List.mem_singleton_self _⟩
  | mapOf l key value =>
    obtain rfl | rfl : c = key ∨ c = value := by simpa [walked] using hc
    · exact ⟨_, List.mem_cons_self⟩
    · exact ⟨_, List.mem_cons_of_mem _ (List.mem_singleton_self _)⟩
  | _ => cases hc

/-- In an accepted document all trees that classes are made from have derived names. -/
theorem heldByParts_hasDerivedNames {ws : List Diagnostic} (h : Document.Accepted m ws) :
    HeldByParts m HasDerivedNames where
  schemas hs := ⟨_, _, h.namedFrom (Dict.mem_values_of_get? hs)⟩
  below := by
    rintro t c ⟨name, nested, ht⟩ hc
    obtain ⟨name', hmem⟩ := exists_mem_handedDown hc
    exact ⟨name', true, ht.children hmem⟩

theorem ClassSource.nodup_keptNames (h : ∀ root, source.root = some root → HasDerivedNames root) :
    (source.keptNames m).Nodup := by
  have hentries : (source.entries.map Prod.fst).Nodup := by
    obtain ⟨name, description, root⟩ := source
    cases root with
    | none => exact List.nodup_nil
    | some root =>
      obtain ⟨_, _, hnamed⟩ := h root rfl
      cases root with
      | object l entries => exact hnamed.entries
      | _ => exact List.nodup_singleton _
  exact hentries.sublist (List.filter_sublist.map _)

theorem ClassSource.hasDerivedNames (h : ∀ root, source.root = some root → HasDerivedNames root)
    {e : String × TypeTree} (he : e ∈ source.entries) : HasDerivedNames e.2 := by
  obtain ⟨name, description, root⟩ := source
  cases root with
  | none => cases he
  | some root =>
    obtain ⟨_, _, hnamed⟩ := h root rfl
    cases root with
    | object l entries => exact ⟨_, _, hnamed.children (List.mem_map.2 ⟨e, he, rfl⟩)⟩
    | _ =>
      obtain rfl := List.mem_singleton.1 he
      exact ⟨_, _, hnamed⟩

end Source

/-- In a class file of an accepted document, which is that of an emission of its context, the
fields, the accessors and the pattern constants have names of their own exactly when no two entries
of the class are made the same: fields when entries are spelled alike without blanks, or one like the
escape of a reserved word; getters, and setters of a mutable class, when fields are alike after
starting in upper case; constants when two fields share one. A field never has one constant twice,
and fields without underscores that differ in upper case share none. -/
theorem ContextFiles.members_distinct_iff {p : Project} {ws : List Diagnostic}
    (h : Document.Accepted p.model ws) (c : Context) {f : SourceFile}
    (hf : f ∈ (ofContext p c).files) {decl : ClassDecl} (hdecl : f.declaration = .class decl) :
    ∃ kind source mutability, Emission.class kind source mutability ∈ emissions p.model c ∧
      (p.classFile kind source mutability).2 = .ok f ∧
      ((decl.fields.map FieldDecl.name).Nodup ↔ ∀ a ∈ source.keptNames p.model,
        ∀ b ∈ source.keptNames p.model, SameField a b → a = b) ∧
      ((decl.getters.map Method.name).Nodup ↔
        Separates accessorStem (source.keptNames p.model)) ∧
      ((decl.setters.map Method.name).Nodup ↔
        (mutability = .mutable → Separates accessorStem (source.keptNames p.model))) ∧
      ((decl.constants.map Constant.name).Nodup ↔ ∀ e ∈ source.keptEntries p.model,
        ∀ e' ∈ source.keptEntries p.model, ∀ n ∈ constantNames e, n ∈ constantNames e' →
          e.1 = e'.1) ∧
      ((∀ a ∈ source.keptNames p.model, '_' ∉ (fieldName a).toList) →
        Separates (fun a => Text.upper (fieldName a)) (source.keptNames p.model) →
          (decl.constants.map Constant.name).Nodup) := by
  obtain ⟨kind, source, mutability, hemitted, hfile, hroot⟩ :=
    exists_source (heldByParts_hasDerivedNames h) hf hdecl
  obtain ⟨d, hd, rfl⟩ := Project.exists_draft hfile
  obtain rfl := Declaration.class.inj hdecl
  have hkeys : (source.keptNames p.model).Nodup := source.nodup_keptNames hroot
  have hown : ∀ e ∈ source.keptEntries p.model, (constantNames e).Nodup := by
    intro e he
    obtain ⟨name, nested, hnamed⟩ := source.hasDerivedNames hroot (List.mem_of_mem_filter he)
    exact nodup_constantNames hnamed
  have hconstants := nodup_constants_iff mutability hd hkeys hown
  refine ⟨kind, source, mutability, hemitted, hfile, nodup_fields_iff mutability hd hkeys,
    nodup_getters_iff mutability hd hkeys, nodup_setters_iff mutability hd hkeys, hconstants,
    fun hplain hupper => hconstants.2 ?_⟩
  intro e he e' he' n hn hn'
  have hmem : e.1 ∈ source.keptNames p.model := List.mem_map_of_mem he
  have hmem' : e'.1 ∈ source.keptNames p.model := List.mem_map_of_mem he'
  exact hupper _ hmem _ hmem' (upper_eq_of_mem_constantNames (hplain _ hmem) (hplain _ hmem') hn hn')

/-- An event (3) whose schema (2) has entries that differ only in a blank, or only in the case of
their first letter. -/
def lookalikes : Generator :=
  .ofModel
    { Model.empty with
      streams := [⟨.uniform 1, "Orders"⟩]
      events := Dict.ofList [(.uniform 3, ⟨.uniform 3, "OrderPlaced", none, some (.uniform 2)⟩)]
      placements := Dict.ofList
        [(.uniform 4, ⟨.uniform 4, 0, .event, .uniform 3, .stream, some (.uniform 1)⟩)]
      schemas := Dict.ofList
        [(.uniform 2, ⟨.uniform 2, "Order", "shop", none,
            .object ⟨"Order", none⟩
              [("order id", .scalar ⟨"Order", none⟩ .int),
                ("orderid", .scalar ⟨"Order", none⟩ .string),
                ("code", .pattern ⟨"Order", none⟩ "[0-9]+"),
                ("Code", .pattern ⟨"Order", none⟩ "[A-Z]+")]⟩)] }
    ⟨.fallback, .useExisting, .tab⟩

def lookalikeContext : Context := ⟨some (.uniform 1), "Orders", [.uniform 4]⟩

def lookalikeLayout : Layout := ⟨"Orders", "main.orders", ⟨""⟩, .useExisting⟩

def lookalikeClass : ClassDecl where
  name := "Order"
  mutability := .mutable
  doc := []
  fields :=
    [⟨"orderid", .primitive .int, none⟩, ⟨"orderid", .primitive .string, none⟩,
      ⟨"code", .primitive .string, none⟩, ⟨"Code", .primitive .string, none⟩]
  constants := [⟨"CODE_REGEX", "[0-9]+"⟩, ⟨"CODE_REGEX", "[A-Z]+"⟩]
  enums := []

def lookalikeFile : SourceFile where
  dir := ⟨"main/orders/schemas"⟩
  package := "main.orders.schemas"
  imports := ∅
  declaration := .class lookalikeClass
  indent := .tab

/-- The class of the schema has entries that are made the same. -/
theorem members_distinct_iff_lookalikes :
    Document.Accepted lookalikes.model [] ∧
      lookalikeFile ∈ (lookalikes.filesOf (lookalikeContext, lookalikeLayout)).files ∧
      ∃ kind source mutability,
        Emission.class kind source mutability ∈
          ContextFiles.emissions lookalikes.model lookalikeContext ∧
        (Project.classFile ⟨lookalikes.model, lookalikeLayout, .tab⟩ kind source mutability).2 =
          .ok lookalikeFile ∧
          (∃ a ∈ source.keptNames lookalikes.model, ∃ b ∈ source.keptNames lookalikes.model,
            SameField a b ∧ a ≠ b) ∧
          ¬ Separates accessorStem (source.keptNames lookalikes.model) := by
  have haccepted : Document.Accepted lookalikes.model [] :=
    Document.accepted_of_wellFormed (by decide +kernel)
  have hfile : lookalikeFile ∈
      (lookalikes.filesOf (lookalikeContext, lookalikeLayout)).files := by
    decide +kernel
  obtain ⟨kind, source, mutability, hemitted, hclass, hfields, hgetters, -⟩ :=
    ContextFiles.members_distinct_iff (p := ⟨lookalikes.model, lookalikeLayout, .tab⟩) haccepted
      lookalikeContext hfile rfl
  refine ⟨haccepted, hfile, kind, source, mutability, hemitted, hclass, ?_, fun h => ?_⟩
  · by_contra hnone
    refine absurd (hfields.2 fun a ha b hb hsame => ?_) (by decide)
    by_contra hne
    exact hnone ⟨a, ha, b, hb, hsame, hne⟩
  · exact absurd (hgetters.2 h) (by decide +kernel)

/-- The document of the model is read without a warning, and in the class of its schema two fields
have one name, and so have two getters, two setters and two constants. -/
theorem lookalikes_repeated :
    Document.Accepted lookalikes.model [] ∧
      lookalikes.projects = [(lookalikeContext, lookalikeLayout)] ∧
      lookalikeFile ∈ (lookalikes.filesOf (lookalikeContext, lookalikeLayout)).files ∧
      ¬ (lookalikeClass.fields.map FieldDecl.name).Nodup ∧
      ¬ (lookalikeClass.getters.map Method.name).Nodup ∧
      ¬ (lookalikeClass.setters.map Method.name).Nodup ∧
      ¬ (lookalikeClass.constants.map Constant.name).Nodup :=
  ⟨Document.accepted_of_wellFormed (by decide +kernel), by decide +kernel, by decide +kernel,
    by decide, by decide +kernel, by decide +kernel, by decide⟩

end EventForge.Java
