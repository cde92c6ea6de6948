import EventForge.Proofs.Document.Sections
import EventForge.Proofs.Document.Skips

/-!
# Reading only warns

What is wrong with a document either refuses it or is a warning. Most readers were followed step by
step for the warnings that skip nothing; here are those that may skip an entry, and the whole
document.
-/

namespace EventForge.Document

open Reading

theorem isWarning_warning (message location : String) :
    (Reading.warning message location).isWarning := rfl

theorem coversUnskipped_isWarning : CoversUnskipped fun d => d.isWarning :=
  fun message location _ => isWarning_warning message location

variable {m : Model} {ws : List Diagnostic}

theorem warns_readListed {α : Type} (word : String) (make : Uuid → String → α) (idOf : α → Uuid)
    (read : List α) (item : Json × Nat) :
    (readListed word make idOf read item).Raises fun d => d.isWarning := by
  refine .lift_bind _ fun o => .lift_bind _ fun id => .lift_bind _ fun name => ?_
  dsimp only
  split
  · exact .bind (.warn (isWarning_warning _ _)) fun _ => .pure _
  · exact .pure _

theorem warns_readElement (parent : String) (elements : Dict Uuid Element)
    (entry : String × Json) :
    (readElement parent elements entry).Raises fun d => d.isWarning := by
  refine .lift_bind _ fun keyed => .lift_bind _ fun o => .lift_bind _ fun id => ?_
  refine (raises_checkKey coversUnskipped_isWarning _ _ _).bind fun _ => .lift_bind _ fun tag => ?_
  split
  · exact .bind (.warn (isWarning_warning _ _)) fun _ => .pure _
  · exact .lift_bind _ fun name => .pure _

theorem warns_readElements (interface : Fields) :
    (readElements interface).Raises fun d => d.isWarning := by
  refine .lift_bind _ fun entries => ?_
  split
  · exact .pure _
  · exact .foldlM (fun elements entry _ => warns_readElement _ elements entry) ∅

theorem warns_readInterface (interfaces : Dict Uuid Interface) (entry : Keyed) :
    (readInterface interfaces entry).Raises fun d => d.isWarning := by
  refine .lift_bind _ fun o => .lift_bind _ fun id => ?_
  refine (raises_checkKey coversUnskipped_isWarning _ _ _).bind fun _ => ?_
  refine (raises_readInterfaceKind coversUnskipped_isWarning _).bind fun kind => ?_
  refine .lift_bind _ fun name => .lift_bind _ fun description => ?_
  exact (warns_readElements o).bind fun elements => .pure _

theorem warns_readPlacement (placements : Dict Uuid Placement) (entry : Keyed) :
    (readPlacement placements entry).Raises fun d => d.isWarning := by
  refine .lift_bind _ fun o => .lift_bind _ fun id => ?_
  refine (raises_checkKey coversUnskipped_isWarning _ _ _).bind fun _ => ?_
  split
  · exact .bind (.warn (isWarning_warning _ _)) fun _ => .pure _
  · split
    · exact .lift_bind _ fun _ => .lift_bind _ fun _ => .lift_bind _ fun _ => .pure _
    · refine .bind (.warn (isWarning_warning _ _)) fun _ => ?_
      exact .lift_bind _ fun _ => .lift_bind _ fun _ => .lift_bind _ fun _ => .pure _

/-- A section is read entry by entry. -/
theorem warns_section {α β : Type} {entries : Except Fault (List α)} {step : β → α → Reading β}
    (h : ∀ acc entry, (step acc entry).Raises fun d => d.isWarning) (start : β) :
    ((liftM entries : Reading (List α)) >>= fun es => es.foldlM step start).Raises
      fun d => d.isWarning :=
  .lift_bind _ fun _ => .foldlM (fun acc entry _ => h acc entry) start

theorem warns_readModel (document : Fields) :
    (readModel document).Raises fun d => d.isWarning := by
  have hP := coversUnskipped_isWarning
  refine .lift_bind _ fun id => .lift_bind _ fun name => .lift_bind _ fun description => ?_
  have hlisted {α : Type} (word : String) (make : Uuid → String → α) (idOf : α → Uuid)
      (items : List (Json × Nat)) :
      (items.foldlM (readListed word make idOf) []).Raises fun d => d.isWarning :=
    .foldlM (fun read item _ => warns_readListed word make idOf read item) []
  refine .bind (.lift_bind _ fun _ => hlisted "audience" Audience.mk Audience.id _) fun _ => ?_
  refine .bind (.lift_bind _ fun _ => hlisted "stream" Stream.mk Stream.id _) fun _ => ?_
  refine .bind (warns_section warns_readInterface ∅) fun _ => ?_
  refine .bind (warns_section (raises_readNote hP .readModel) ∅) fun _ => ?_
  refine .bind (warns_section (raises_readNote hP .event) ∅) fun _ => ?_
  refine .bind (warns_section (raises_readNote hP .command) ∅) fun _ => ?_
  refine .bind (warns_section raises_readFlow ∅) fun _ => ?_
  refine .bind (warns_section warns_readPlacement ∅) fun _ => ?_
  exact .bind (warns_section (raises_readSchema hP) ∅) fun _ => .pure _

theorem warns_ofJson (json : Json) : (ofJson json).Raises fun d => d.isWarning := by
  cases json with
  | object root =>
    refine (raises_checkVersion coversUnskipped_isWarning root).bind fun _ => ?_
    exact .lift_bind _ fun document => warns_readModel document
  | null => exact .refused _
  | bool => exact .refused _
  | number => exact .refused _
  | string => exact .refused _
  | array => exact .refused _

/-- Everything that reading an accepted document remarks on is a warning. -/
theorem Accepted.isWarning (h : Accepted m ws) : ∀ d ∈ ws, d.isWarning := by
  cases h with
  | json document h => exact warns_ofJson document m ws h
  | text document h =>
    rw [ofText] at h
    split at h
    · next json _ => exact warns_ofJson json m ws h
    · cases h

end EventForge.Document
