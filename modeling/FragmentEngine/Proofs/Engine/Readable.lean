import FragmentEngine.Proofs.Engine.Upkeep
import FragmentEngine.Proofs.Insert.Row
import FragmentEngine.Proofs.Select.Projected
/-!
# Stored fragments can be read

Cells are encoded from texts and arguments, copied from other fragments, computed, numbered and packed, and all of this
makes well-formed fragments of well-formed ones. So reading a stored fragment never fails.
-/

namespace FragmentEngine

namespace Request

variable {r : Request} {several : Bool} {schema : Schema} {records : List Record}

/-- Inserted records fit the columns that they are inserted into. -/
theorem decodes_of_insertedRecords (h : r.insertedRecords several schema = .ok records) :
    ∀ record ∈ records, record.Decodes schema := by
  obtain ⟨names, -, h⟩ := Outcome.bind_eq_ok.1 h
  obtain ⟨values, -, h⟩ := Outcome.bind_eq_ok.1 h
  dsimp only at h
  split at h
  · exact Insert.decodes_of_records h
  · obtain ⟨record, hrecord, h⟩ := Outcome.bind_eq_ok.1 h
    cases h
    exact List.forall_mem_singleton.2 (Insert.decodes_of_record hrecord)

/-- A new schema flags no column. -/
theorem wellFlagged_newSchema (h : r.newSchema = .ok schema) : schema.WellFlagged := by
  obtain ⟨-, hflags⟩ := newSchema_eq_ok h
  refine ⟨Nat.le_trans (Nat.le_of_eq (List.countP_eq_zero.2 fun field hfield => ?_)) (Nat.zero_le 1),
    fun field hfield hflag => ?_⟩
  · rw [hflags field hfield]
    exact Bool.false_ne_true
  · rw [hflags field hfield] at hflag
    cases hflag

theorem keeps_wellFormed (headroom : Nat) (params : Params) (args : List Argument) (op : Operation) :
    Keeps (fun _ f => f.WellFormed) ⟨.builtin headroom, params, args⟩ op where
  created _ _ _ _ hschema := .empty _ (wellFlagged_newSchema hschema)
  inserted hf hrecords := hf.append (decodes_of_insertedRecords hrecords)
  selected hsources hexecute := by
    obtain ⟨p, selection, groups, hproject⟩ := SelectRequest.project_of_execute hexecute
    exact Projection.wellFormed_of_project (fun s hs => (hsources s hs).elim fun _ => id) hproject
  imported _ _ _ _ _ _ _ _ hproduce _ hf := by
    rw [producer_builtin hproduce] at hf
    obtain ⟨⟨hflags, hrecords⟩, -⟩ := Import.wellFormed_of_ofText hf
    exact ⟨hflags, hrecords⟩

end Request

namespace Shared

/-- An engine that keeps its files in the working directory. -/
def inWorking : World := .keptIn .empty Path.working .empty

theorem startsEmpty_inWorking : inWorking.StartsEmpty := .keptIn Disk.isEmptyDirectory_working

end Shared

end FragmentEngine
