import EventForge.Java.ContextFiles

/-!
# Emission reads a model through its schemas

Apart from which notes there are, the files of a context depend on the model by its schemas alone:
two models with the same schemas resolve, walk and draft alike, function by function
(`ofContext_congr`).
-/

namespace EventForge.Java

variable {m m' : Model}

theorem schema?_congr (h : m'.schemas = m.schemas) : m'.schema? = m.schema? := by
  funext id
  rw [Model.schema?, Model.schema?, h]

namespace Resolve

theorem targetName_congr (h : m'.schemas = m.schemas) : targetName m' = targetName m := by
  funext id
  rw [targetName, targetName, schema?_congr h]

theorem typeRef_congr (h : m'.schemas = m.schemas) : typeRef m' = typeRef m := by
  funext t
  fun_induction typeRef m t with
  | case1 | case2 | case8 | case9 | case11 | case12 | case13 => rfl
  | case3 l c ih | case4 l c ih | case5 l c ih | case6 l c ih => rw [typeRef, ih]
  | case7 l k v ihk ihv => rw [typeRef, ihk, ihv]
  | case10 l id => rw [typeRef, targetName_congr h]

theorem entityOf_congr (h : m'.schemas = m.schemas) : entityOf m' = entityOf m := by
  funext t
  cases t <;> simp only [entityOf, targetName_congr h]

theorem entities_congr (h : m'.schemas = m.schemas) : entities m' = entities m := by
  funext t
  rw [entities, entities, entityOf_congr h]

end Resolve

theorem ClassDraft.addField_congr (h : m'.schemas = m.schemas) : addField m' = addField m := by
  funext d entry
  simp only [addField, Resolve.typeRef_congr h, Resolve.entities_congr h]

theorem ClassDraft.addFields_congr (h : m'.schemas = m.schemas) (d : ClassDraft)
    (entries : List (String × TypeTree)) : addFields m' d entries = addFields m d entries := by
  induction entries generalizing d with
  | nil => rfl
  | cons entry entries ih =>
    rw [addFields, addFields, addField_congr h]
    split
    · exact ih _
    · rfl

namespace Walk

theorem follow_congr (h : m'.schemas = m.schemas) (description : Option String) (steps : Nat) :
    follow m' description steps = follow m description steps := by
  induction steps with
  | zero => rfl
  | succ steps ih =>
    funext id w
    simp only [follow, schema?_congr h, ih]

end Walk

theorem demands_congr (h : m'.schemas = m.schemas) : demands m' = demands m := by
  funext note schema
  simp only [demands, h, Walk.follow_congr h]

variable {layout : Layout} {indent : Code.Indent}

theorem Project.classFile_congr (h : m'.schemas = m.schemas) :
    (Project.mk m' layout indent).classFile = (Project.mk m layout indent).classFile := by
  funext kind source mutability
  simp only [classFile, ClassDraft.addFields_congr h]
  rfl

namespace ContextFiles

theorem serve_congr (h : m'.schemas = m.schemas) :
    serve ⟨m', layout, indent⟩ = serve ⟨m, layout, indent⟩ := by
  funext fs d
  cases d with
  | entity t description => simp only [serve, Project.classFile_congr h]
  | enum t description => rfl

theorem addNote_congr (h : m'.schemas = m.schemas) :
    addNote ⟨m', layout, indent⟩ = addNote ⟨m, layout, indent⟩ := by
  funext fs entry
  simp only [addNote, schema?_congr h, demands_congr h, serve_congr h, Project.classFile_congr h]

/-- Models with the same schemas make the same of the same notes. -/
theorem ofContext_congr {c : Context} (h : m'.schemas = m.schemas)
    (hnotes : notesIn m' c = notesIn m c) :
    ofContext ⟨m', layout, indent⟩ c = ofContext ⟨m, layout, indent⟩ c := by
  rw [ofContext, ofContext, addNote_congr h, hnotes]

end ContextFiles

end EventForge.Java
