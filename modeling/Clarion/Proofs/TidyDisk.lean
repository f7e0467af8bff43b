import Clarion.Disk
import Mathlib.Data.List.Nodup

/-! Disks where no folder has two entries of one name. Whatever is added to such a disk, it stays
one. The entries of its folders come in the strict order of their names, and an entry is what stands
at the place of its name. -/
namespace Clarion

namespace Node

/-- No folder of the tree has two entries of one name. -/
inductive Tidy : Node → Prop
  | file (bytes : List UInt8) : Tidy (.file bytes)
  | link (target : Path) : Tidy (.link target)
  | folder {entries : List (String × Node)} (names : (entries.map Prod.fst).Nodup)
    (below : ∀ entry ∈ entries, Tidy entry.2) : Tidy (.folder entries)

variable {node inner tree : Node} {entries : List (String × Node)} {name : String} {place : Place}

theorem tidy_empty : (folder []).Tidy :=
  .folder List.nodup_nil fun _ absent => absurd absent List.not_mem_nil

/-! ### Places -/

theorem get?_nil (node : Node) : node.get? [] = some node := by
  cases node <;> rfl

theorem get?_append (node : Node) (place rest : Place) :
    node.get? (place ++ rest) = (node.get? place).bind (·.get? rest) := by
  induction place generalizing node with
  | nil => rw [get?_nil, Option.bind_some, List.nil_append]
  | cons name deeper ih =>
    cases node with
    | folder entries =>
      rw [List.cons_append, get?, get?, Option.bind_assoc]
      exact congrArg _ (funext fun inner => ih inner)
    | _ => rfl

theorem get?_singleton (entries : List (String × Node)) (name : String) :
    (folder entries).get? [name] = entries.lookup name := by
  rw [get?]
  cases entries.lookup name with
  | none => rfl
  | some inner => exact get?_nil inner

theorem lookup_iff (names : (entries.map Prod.fst).Nodup) :
    entries.lookup name = some inner ↔ (name, inner) ∈ entries := by
  rw [List.lookup_eq_some_iff]
  constructor
  · rintro ⟨before, after, rfl, -⟩
    exact List.mem_append_right _ List.mem_cons_self
  · intro member
    obtain ⟨before, after, rfl⟩ := List.append_of_mem member
    refine ⟨before, after, rfl, fun entry earlier => ?_⟩
    rw [List.map_append, List.nodup_append] at names
    have different := names.2.2 entry.1 (List.mem_map_of_mem earlier) name (by simp)
    simpa using different.symm

theorem tidy_of_get? (tidy : node.Tidy) (found : node.get? place = some inner) : inner.Tidy := by
  induction place generalizing node with
  | nil =>
    cases (get?_nil node).symm.trans found
    exact tidy
  | cons name deeper ih =>
    cases tidy with
    | folder names below =>
      obtain ⟨child, member, found⟩ := Option.bind_eq_some_iff.mp found
      exact ih (below _ ((lookup_iff names).mp member)) found
    | _ => cases found

/-! ### The entries of a folder -/

theorem mem_entries (tidy : node.Tidy) :
    (name, inner) ∈ node.entries ↔ node.get? [name] = some inner := by
  cases tidy with
  | folder names below => rw [Node.entries, List.mem_mergeSort, get?_singleton, lookup_iff names]
  | _ => simp [Node.entries, get?]

theorem entries_atMost (node : Node) :
    node.entries.Pairwise fun left right => left.1 ≤ right.1 := by
  cases node with
  | folder entries =>
    have sorted := @List.pairwise_mergeSort _ (fun left right : String × Node => left.1 ≤ right.1)
      (fun _ _ _ first second => by
        rw [decide_eq_true_eq] at first second ⊢
        exact String.le_trans first second)
      (fun left right => by simpa using String.le_total left.1 right.1) entries
    exact sorted.imp of_decide_eq_true
  | _ => exact .nil

theorem entries_apart (tidy : node.Tidy) : (node.entries.map Prod.fst).Nodup := by
  cases tidy with
  | folder names below => exact ((List.mergeSort_perm _ _).map Prod.fst).nodup_iff.mpr names
  | _ => exact .nil

theorem entries_ascend (tidy : node.Tidy) :
    node.entries.Pairwise fun left right => left.1 < right.1 := by
  have apart := List.pairwise_map.mp (entries_apart tidy)
  refine ((entries_atMost node).and apart).imp fun ⟨atMost, different⟩ => ?_
  exact String.not_le.mp fun atLeast => different (String.le_antisymm atMost atLeast)

/-! ### What is put -/

theorem map_fst_setEntry (entries : List (String × Node)) (name : String) (node : Node) :
    (setEntry entries name node).map Prod.fst =
      if entries.any (·.1 == name) then entries.map Prod.fst
      else entries.map Prod.fst ++ [name] := by
  unfold setEntry
  split
  · rw [List.map_map]
    refine List.map_congr_left fun entry _ => ?_
    rw [Function.comp_apply]
    split <;> simp_all
  · rw [List.map_append, List.map_singleton]

theorem eq_or_mem_of_mem_setEntry {entry : String × Node}
    (member : entry ∈ setEntry entries name node) : entry = (name, node) ∨ entry ∈ entries := by
  unfold setEntry at member
  split at member
  · obtain ⟨old, inside, rfl⟩ := List.mem_map.mp member
    split
    · exact .inl rfl
    · exact .inr inside
  · simpa [or_comm] using member

theorem tidy_setEntry (tidy : (folder entries).Tidy) (new : node.Tidy) :
    (folder (setEntry entries name node)).Tidy := by
  obtain _ | _ | ⟨names, below⟩ := tidy
  refine .folder ?_ fun entry member => ?_
  · rw [map_fst_setEntry]
    split
    · exact names
    · rename_i absent
      refine List.nodup_append.mpr ⟨names, List.nodup_singleton _, ?_⟩
      rintro _ before _ (_ | ⟨_, ⟨⟩⟩) rfl
      obtain ⟨entry, member, rfl⟩ := List.mem_map.mp before
      exact absent (List.any_eq_true.mpr ⟨entry, member, beq_self_eq_true _⟩)
  · obtain rfl | inside := eq_or_mem_of_mem_setEntry member
    · exact new
    · exact below entry inside

theorem tidy_put (new : node.Tidy) (place : Place) (tidy : tree.Tidy) :
    (node.put place tree).Tidy := by
  induction place generalizing tree with
  | nil => rwa [put]
  | cons name deeper ih =>
    have alone : (folder [(name, node.put deeper (.folder []))]).Tidy :=
      tidy_setEntry tidy_empty (ih tidy_empty)
    cases tree with
    | folder entries =>
      refine tidy_setEntry tidy (ih ?_)
      cases found : entries.lookup name with
      | none => exact tidy_empty
      | some inner => exact tidy_of_get? tidy ((get?_singleton entries name).trans found)
    | _ => exact alone

end Node

namespace Disk

theorem place?_root {disk : Disk} (isFolder : disk.root.isFolder) : disk.place? ⟨"/"⟩ = some [] := by
  have cut : segments ⟨"/"⟩ = ["", ""] := rfl
  have inside : (disk.root.get? []).any Node.isFolder = true := by rwa [Node.get?_nil, Option.any_some]
  rw [place?, if_neg (by decide), cut]
  change walk disk.root linkLimit [] ["", ""] = _
  simp [walk, inside]

theorem tidy_add {disk : Disk} {node : Node} (tidy : disk.root.Tidy) (path : Path)
    (new : node.Tidy) : (disk.add path node).root.Tidy :=
  Node.tidy_put new _ tidy

end Disk
end Clarion
