import MarkerBoard.Proofs.History.Patch
import MarkerBoard.Proofs.Json.RoundTrip
import MarkerBoard.Proofs.Session.Located

/-!
# Fingerprints of items

The history tells items apart by a hash of path, line, keyword and title, with colons between them.
Nothing is escaped. The line is a number, so that two items of one file differ there. A path,
however, may have colons in it: then it may go on, after the path of another file, with the line of
an item there and more of what is said of this item. If the keywords and titles fit, both items have
one fingerprint. There is no other way.

Main results:

* `Item.fingerprint_eq_iff` — when items of different files have one fingerprint.
* `Item.exists_line_of_continues` — what the longer one of the two paths looks like.
* `ScanContext.injOn_place_itemsOn` — the items of a scan are in different places.
* `Changes.byHash_eq_iff` — when no two tasks are taken for one.
-/
namespace MarkerBoard

/-- What is before the first colon of a text can be read off it. -/
theorem Text.eq_or_exists_of_append_colon {a b x y : Text} (ha : ':' ∉ a)
    (h : a ++ ':' :: x = b ++ ':' :: y) : b = a ∨ ∃ t, b = a ++ ':' :: t := by
  rcases List.append_eq_append_iff.1 h with ⟨t, rfl, ht⟩ | ⟨t, rfl, ht⟩
  · cases t with
    | nil => exact .inl (List.append_nil a)
    | cons c t =>
      rw [List.cons_append, List.cons.injEq] at ht
      exact .inr ⟨t, by rw [← ht.1]⟩
  · cases t with
    | nil => exact .inl (List.append_nil b).symm
    | cons c t =>
      rw [List.cons_append, List.cons.injEq] at ht
      exact absurd (List.mem_append_right b (ht.1 ▸ List.mem_cons_self)) ha

theorem Text.ofInt_injective : Function.Injective Text.ofInt := by
  intro n m h
  have hn := Json.atom?_ofInt n
  rw [h, Json.atom?_ofInt] at hn
  cases hn
  rfl

theorem Text.colon_notMem_ofInt (n : Int) : ':' ∉ Text.ofInt n := fun h =>
  absurd (Json.isDelimiter_ofInt n ':' h) (by decide)

namespace Item

variable {i j : Item}

/-- The text of which the hash of the item is taken. -/
def fingerprint (i : Item) : Text := fingerprintText i.file i.line i.keyword i.title

/-- What follows the path in it. -/
def mark (i : Item) : Text := Text.ofInt i.line ++ ':' :: (i.keyword ++ ':' :: i.title)

theorem fingerprint_eq (i : Item) : i.fingerprint = i.file ++ ':' :: i.mark := by
  simp [fingerprint, fingerprintText, mark, Text.join]

/-- The path of the second item goes on after that of the first one, with a colon and part of what
follows there; what is left of this follows the path of the second item. -/
def Continues (i j : Item) : Prop :=
  ∃ middle, j.file = i.file ++ ':' :: middle ∧ i.mark = middle ++ ':' :: j.mark

theorem fingerprint_eq_of_continues (h : i.Continues j) : i.fingerprint = j.fingerprint := by
  obtain ⟨middle, hfile, hmark⟩ := h
  rw [fingerprint_eq, fingerprint_eq, hfile, hmark, List.append_assoc, List.cons_append]

theorem Continues.file_ne (h : i.Continues j) : i.file ≠ j.file := by
  obtain ⟨middle, hfile, -⟩ := h
  intro heq
  simpa using congrArg List.length (heq.trans hfile)

/-- If the fingerprints are the same and one path goes on after the other, it does so with a
colon. -/
theorem continues_of_append {more : Text} (hfile : j.file = i.file ++ more) (hmore : more ≠ [])
    (h : ':' :: i.mark = more ++ ':' :: j.mark) : i.Continues j := by
  obtain ⟨c, middle, rfl⟩ := List.exists_cons_of_ne_nil hmore
  rw [List.cons_append, List.cons.injEq] at h
  obtain ⟨rfl, hmark⟩ := h
  exact ⟨middle, hfile, hmark⟩

/-- Items of different files have one fingerprint if one path continues the other. -/
theorem fingerprint_eq_iff (h : i.file ≠ j.file) :
    i.fingerprint = j.fingerprint ↔ i.Continues j ∨ j.Continues i := by
  constructor
  · intro heq
    rw [fingerprint_eq, fingerprint_eq] at heq
    rcases List.append_eq_append_iff.1 heq with ⟨more, hfile, hmore⟩ | ⟨more, hfile, hmore⟩
    · refine .inl (continues_of_append hfile ?_ hmore)
      rintro rfl
      exact h (hfile.trans (List.append_nil _)).symm
    · refine .inr (continues_of_append hfile ?_ hmore)
      rintro rfl
      exact h (hfile.trans (List.append_nil _))
  · rintro (hij | hji)
    · exact fingerprint_eq_of_continues hij
    · exact (fingerprint_eq_of_continues hji).symm

/-- In one file, the line is in the fingerprint. -/
theorem line_eq_of_fingerprint_eq (hfile : i.file = j.file) (h : i.fingerprint = j.fingerprint) :
    i.line = j.line := by
  rw [fingerprint_eq, fingerprint_eq, hfile, List.append_cancel_left_eq, List.cons.injEq] at h
  refine Text.ofInt_injective ?_
  rcases Text.eq_or_exists_of_append_colon (Text.colon_notMem_ofInt i.line) h.2 with heq | ⟨t, ht⟩
  · exact heq.symm
  · refine absurd ?_ (Text.colon_notMem_ofInt j.line)
    rw [ht]
    simp

/-- The longer path goes on with the line of the other item, and then it ends or there is another
colon. -/
theorem exists_line_of_continues (h : i.Continues j) :
    j.file = i.file ++ ':' :: Text.ofInt i.line ∨
    ∃ more, j.file = i.file ++ ':' :: (Text.ofInt i.line ++ ':' :: more) := by
  obtain ⟨middle, hfile, hmark⟩ := h
  rcases Text.eq_or_exists_of_append_colon (Text.colon_notMem_ofInt i.line) hmark with
    rfl | ⟨more, rfl⟩
  · exact .inl hfile
  · exact .inr ⟨more, hfile⟩

end Item

/-- The hash is taken of the fingerprint. -/
theorem Task.hash_ofItem_congr {i j : Item} (h : i.fingerprint = j.fingerprint) :
    (ofItem i).hash = (ofItem j).hash := by
  show (Sha256.hex (Utf8.encode i.fingerprint)).take 16 = _
  rw [h]
  rfl

/-! ## The items of a scan -/

namespace Walk

open Disk

variable {d : Disk} {root : Path} {excluded : List Text} {ignored : Text → Bool}

/-- A walk finds something only below a directory. -/
theorem exists_leads_of_mem_files {names : List Text} (h : names ∈ files d root excluded ignored) :
    ∃ place, Leads d true linkLimit [] (d.absolute root).parts place ∧ d.at? place = some .dir := by
  rw [files] at h
  split at h
  · cases h
  · next place hplace =>
    split at h
    · next hdir => exact ⟨place, locate_eq_ok_iff.1 hplace, hdir⟩
    · cases h

end Walk

namespace Disk

variable {d : Disk}

/-- Different files have different paths, whatever links there are. -/
theorem nodup_fst_sources (hnodup : (d.entries.map Prod.fst).Nodup)
    (hname : ∀ e ∈ d.entries, ∀ n ∈ e.1, Path.IsName n) (root : Path) (excluded : List Text)
    (ignored : List Ignore.Pattern) : ((d.sources root excluded ignored).map Prod.fst).Nodup := by
  refine IsProject.nodup_sources_of_files ?_ fun names hmem => ?_
  · rcases hfiles : Walk.files d root excluded (Ignore.ignores ignored) with _ | ⟨names, rest⟩
    · exact List.nodup_nil
    · obtain ⟨place, hway, hdir⟩ := Walk.exists_leads_of_mem_files (hfiles ▸ List.mem_cons_self)
      rw [← hfiles]
      exact Walk.nodup_files hway hdir hnodup
  · obtain ⟨place, hway, hdir⟩ := Walk.exists_leads_of_mem_files hmem
    obtain ⟨hne, ⟨node, hat, -⟩, -⟩ := (Walk.mem_files_iff hway hdir hnodup).1 hmem
    refine ⟨hne, fun n hn => ?_⟩
    exact hname _ (mem_entries_of_at? hat (by simp [hne])) n (List.mem_append_right _ hn)

end Disk

namespace Action

variable {p : Project} {w w' : World} {items : List Item}

/-- The items of a scan are in different places. -/
theorem nodup_places_of_scan (hnodup : (w.disk.entries.map Prod.fst).Nodup)
    (hname : ∀ e ∈ w.disk.entries, ∀ n ∈ e.1, Path.IsName n)
    (hscan : scan p w = (.ok items, w')) : ((items.map Spot.ofItem).map Spot.place).Nodup := by
  obtain ⟨s, w₁, hs, -⟩ := Steps.bind_ok_iff.1 hscan
  obtain ⟨log, log', happly⟩ := scan_apply (congrArg Prod.fst hs)
  rw [happly] at hscan
  split at hscan
  · cases hscan
    exact List.nodup_nil
  · split at hscan
    · cases hscan
    · cases hscan
      exact ScanContext.nodup_places_itemsOfFiles (Disk.nodup_fst_sources hnodup hname _ _ _) 1

/-- Items in different places have the same fingerprint if the path of one continues that of the
other, and not otherwise. -/
theorem fingerprint_eq_iff_of_places (hplaces : ((items.map Spot.ofItem).map Spot.place).Nodup)
    {i j : Item} (hi : i ∈ items) (hj : j ∈ items) (hne : i ≠ j) :
    i.fingerprint = j.fingerprint ↔ i.Continues j ∨ j.Continues i := by
  by_cases hfile : i.file = j.file
  · refine iff_of_false (fun heq => hne ?_) ?_
    · rw [List.map_map] at hplaces
      have hline := Item.line_eq_of_fingerprint_eq hfile heq
      exact List.inj_on_of_nodup_map hplaces hi hj (Prod.ext hfile hline)
    · rintro (h | h)
      · exact h.file_ne hfile
      · exact h.file_ne hfile.symm
  · exact Item.fingerprint_eq_iff hfile

/-- Items in different places have different hashes if no path continues another and the hash tells
different fingerprints apart. -/
theorem nodup_hash_iff_of_places (hplaces : ((items.map Spot.ofItem).map Spot.place).Nodup)
    (hhash : ∀ i ∈ items, ∀ j ∈ items, (Task.ofItem i).hash = (Task.ofItem j).hash →
      i.fingerprint = j.fingerprint) :
    ((items.map Task.ofItem).map Task.hash).Nodup ↔
      ∀ i ∈ items, ∀ j ∈ items, ¬ i.Continues j := by
  rw [List.map_map]
  constructor
  · intro hnodup i hi j hj hcontinues
    have hsame : (Task.ofItem i).hash = (Task.ofItem j).hash :=
      Task.hash_ofItem_congr (Item.fingerprint_eq_of_continues hcontinues)
    exact hcontinues.file_ne (congrArg Item.file (List.inj_on_of_nodup_map hnodup hi hj hsame))
  · intro hfree
    refine (hplaces.of_map.of_map).map_on fun i hi j hj hsame => ?_
    by_contra hne
    rcases (fingerprint_eq_iff_of_places hplaces hi hj hne).1 (hhash i hi j hj hsame) with h | h
    · exact hfree i hi j hj h
    · exact hfree j hj i hi h

/-- Two items of a scan have the same fingerprint if the path of one continues that of the other, and
not otherwise. Then the longer path has a colon in it, after that the line of the other item, and
then it ends or there is another colon. If the hash tells different fingerprints apart, the history
takes no two items for one task unless one path continues another. -/
theorem fingerprint_eq_iff_of_scan (hnodup : (w.disk.entries.map Prod.fst).Nodup)
    (hname : ∀ e ∈ w.disk.entries, ∀ n ∈ e.1, Path.IsName n)
    (hscan : scan p w = (.ok items, w')) :
    (∀ i ∈ items, ∀ j ∈ items, i ≠ j →
      (i.fingerprint = j.fingerprint ↔ i.Continues j ∨ j.Continues i)) ∧
    (∀ i ∈ items, ∀ j ∈ items, i.Continues j → j.file = i.file ++ ':' :: Text.ofInt i.line ∨
      ∃ more, j.file = i.file ++ ':' :: (Text.ofInt i.line ++ ':' :: more)) ∧
    ((∀ i ∈ items, ∀ j ∈ items, (Task.ofItem i).hash = (Task.ofItem j).hash →
        i.fingerprint = j.fingerprint) →
      (Changes.byHash (items.map Task.ofItem) =
          items.map (fun i => ((Task.ofItem i).hash, Task.ofItem i)) ↔
        ∀ i ∈ items, ∀ j ∈ items, ¬ i.Continues j)) := by
  have hplaces := nodup_places_of_scan hnodup hname hscan
  refine ⟨fun i hi j hj hne => fingerprint_eq_iff_of_places hplaces hi hj hne,
    fun i _ j _ => Item.exists_line_of_continues, fun hhash => ?_⟩
  rw [← nodup_hash_iff_of_places hplaces hhash, ← Changes.byHash_eq_iff, List.map_map]
  rfl

/-! ## Two items that are alike -/

/-- A world with two files, the path of one of which goes on after that of the other. -/
def sampleColons : World := { HistoryStore.sampleWorld none with
  disk := ⟨⟨['/'], []⟩, [(["a".toList], .file (Utf8.encode "// TODO: 1:TODO:y\n".toList) 0o644),
    (["a:1:TODO".toList], .file (Utf8.encode "// TODO: y\n".toList) 0o644)]⟩ }

/-- The project of these files. -/
def sampleColonProject : Project := ⟨⟨['/'], []⟩, .fixed ScanContext.sampleBoard⟩

/-- The items in them. -/
def sampleAlike : List Item := ((scan sampleColonProject sampleColons).1.toOption).getD []

theorem scan_sampleColons :
    scan sampleColonProject sampleColons = (.ok sampleAlike, sampleColons) := by
  cbv

theorem exists_sampleAlike_eq : ∃ i j, sampleAlike = [i, j] ∧ i.file = "a".toList ∧
    j.file = "a:1:TODO".toList ∧ i.fingerprint = j.fingerprint := by
  have h : sampleAlike.map (fun i => (i.file, i.fingerprint)) =
      [("a".toList, "a:1:TODO:1:TODO:y".toList),
        ("a:1:TODO".toList, "a:1:TODO:1:TODO:y".toList)] := by
    cbv
  obtain ⟨i, rest, hcons, hi, hrest⟩ := List.map_eq_cons_iff.1 h
  obtain ⟨j, rest', rfl, hj, hnil⟩ := List.map_eq_cons_iff.1 hrest
  rw [List.map_eq_nil_iff.1 hnil] at hcons
  obtain ⟨hfile, hprint⟩ := Prod.mk.inj hi
  obtain ⟨hfile', hprint'⟩ := Prod.mk.inj hj
  exact ⟨i, j, hcons, hfile, hfile', hprint.trans hprint'.symm⟩

/-- Both items have one fingerprint, and the history takes them for one task. -/
theorem exists_alike_of_scan : ∃ i j,
    scan sampleColonProject sampleColons = (.ok [i, j], sampleColons) ∧ i ≠ j ∧
      i.fingerprint = j.fingerprint ∧ (Changes.byHash [Task.ofItem i, Task.ofItem j]).length = 1 := by
  obtain ⟨i, j, hitems, hi, hj, hsame⟩ := exists_sampleAlike_eq
  have hne : i ≠ j := by
    rintro rfl
    exact absurd (hi.symm.trans hj) (by decide)
  refine ⟨i, j, hitems ▸ scan_sampleColons, hne, hsame, ?_⟩
  have hkeys := Changes.keys_byHash [Task.ofItem i, Task.ofItem j]
  rw [Task.hashes, List.map_cons, List.map_singleton, Task.hash_ofItem_congr hsame] at hkeys
  rw [← List.length_map Prod.fst]
  exact (congrArg List.length hkeys).trans (by simp [List.eraseDups_cons])

/-- One of the paths continues the other. -/
theorem fingerprint_eq_iff_of_scan_sampleColons :
    (sampleColons.disk.entries.map Prod.fst).Nodup ∧
    (∀ e ∈ sampleColons.disk.entries, ∀ n ∈ e.1, Path.IsName n) ∧
    ∃ i j, scan sampleColonProject sampleColons = (.ok [i, j], sampleColons) ∧
      (i.Continues j ∨ j.Continues i) ∧
      Changes.byHash [Task.ofItem i, Task.ofItem j] ≠
        [((Task.ofItem i).hash, Task.ofItem i), ((Task.ofItem j).hash, Task.ofItem j)] := by
  have hnodup : (sampleColons.disk.entries.map Prod.fst).Nodup := by decide
  have hname : ∀ e ∈ sampleColons.disk.entries, ∀ n ∈ e.1, Path.IsName n := by
    have hplaces : ∀ q ∈ sampleColons.disk.entries.map Prod.fst, ∀ n ∈ q, Path.IsName n := by
      decide
    exact fun e he => hplaces e.1 (List.mem_map_of_mem he)
  obtain ⟨i, j, hitems, hi, hj, hsame⟩ := exists_sampleAlike_eq
  have hscan : scan sampleColonProject sampleColons = (.ok [i, j], sampleColons) :=
    hitems ▸ scan_sampleColons
  obtain ⟨hiff, -, hmerged⟩ := fingerprint_eq_iff_of_scan hnodup hname hscan
  have hne : i ≠ j := by
    rintro rfl
    exact absurd (hi.symm.trans hj) (by decide)
  have hcontinues := (hiff i (by simp) j (by simp) hne).1 hsame
  refine ⟨hnodup, hname, i, j, hscan, hcontinues, fun heq => ?_⟩
  have hfree := (hmerged ?_).1 heq
  · rcases hcontinues with h | h
    · exact hfree i (by simp) j (by simp) h
    · exact hfree j (by simp) i (by simp) h
  · -- there is only one fingerprint
    have hall : ∀ k ∈ [i, j], k.fingerprint = i.fingerprint := by simp [hsame]
    exact fun k hk l hl _ => (hall k hk).trans (hall l hl).symm

end Action
end MarkerBoard
