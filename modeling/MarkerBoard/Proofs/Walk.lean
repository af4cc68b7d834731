import Mathlib.Data.List.Sort
import MarkerBoard.Proofs.Disk.Leads
import MarkerBoard.Walk

/-!
# Which files a walk finds

A walk finds the entries below a directory that count as files, each once and in an order that
their names alone decide. So two walks that find the same files find them in the same order, on
whatever disks they are.

Main results:

* `Walk.before_trans`, `Walk.before_total`, `Walk.before_antisymm` — the order of a walk.
* `Walk.mem_files_iff` — which files a walk finds.
* `Walk.filterMap_eq` — what is read of the files that are found depends on these files alone.
-/
namespace MarkerBoard

/-! ## The order of texts -/

namespace Text

variable {a b : Char} {s t u : Text}

/-- The first difference decides. -/
theorem isUpTo_cons_iff :
    isUpTo (a :: s) (b :: t) = true ↔ a.toNat < b.toNat ∨ a = b ∧ isUpTo s t = true := by
  rw [isUpTo]
  by_cases hab : a = b
  · simp [hab]
  · simp [hab]

theorem isUpTo_total (s t : Text) : isUpTo s t = true ∨ isUpTo t s = true := by
  induction s generalizing t with
  | nil => exact .inl rfl
  | cons a s ih =>
    cases t with
    | nil => exact .inr rfl
    | cons b t =>
      rw [isUpTo_cons_iff, isUpTo_cons_iff]
      rcases Nat.lt_trichotomy a.toNat b.toNat with hlt | heq | hgt
      · exact .inl (.inl hlt)
      · obtain rfl := Char.toNat_inj.1 heq
        exact (ih t).imp (fun h => .inr ⟨rfl, h⟩) fun h => .inr ⟨rfl, h⟩
      · exact .inr (.inl hgt)

theorem isUpTo_antisymm (hst : isUpTo s t = true) (hts : isUpTo t s = true) : s = t := by
  induction s generalizing t with
  | nil =>
    cases t with
    | nil => rfl
    | cons b t => cases hts
  | cons a s ih =>
    cases t with
    | nil => cases hst
    | cons b t =>
      rw [isUpTo_cons_iff] at hst hts
      rcases hst with hlt | ⟨rfl, hst⟩
      · rcases hts with hgt | ⟨rfl, -⟩
        · omega
        · omega
      · rcases hts with hlt | ⟨-, hts⟩
        · omega
        · rw [ih hst hts]

theorem isUpTo_trans (hst : isUpTo s t = true) (htu : isUpTo t u = true) :
    isUpTo s u = true := by
  induction s generalizing t u with
  | nil => rfl
  | cons a s ih =>
    cases t with
    | nil => cases hst
    | cons b t =>
    cases u with
    | nil => cases htu
    | cons c u =>
    rw [isUpTo_cons_iff] at *
    rcases hst with hab | ⟨rfl, hst⟩
    · rcases htu with hbc | ⟨rfl, -⟩
      · exact .inl (hab.trans hbc)
      · exact .inl hab
    · rcases htu with hbc | ⟨rfl, htu⟩
      · exact .inl hbc
      · exact .inr ⟨rfl, ih hst htu⟩

end Text

namespace Walk

/-! ## The order of files -/

section Order

variable {x x' y y' : Text} {xs ys a b c : List Text}

/-- In different subdirectories, the first different name decides. -/
theorem before_cons_iff : before (x :: x' :: xs) (y :: y' :: ys) = true ↔
    x ≠ y ∧ Text.isUpTo x y = true ∨ x = y ∧ before (x' :: xs) (y' :: ys) = true := by
  rw [before.eq_def]
  by_cases hxy : x = y
  · simp [hxy]
  · simp [hxy]

theorem before_total : ∀ a b : List Text, before a b = true ∨ before b a = true
  | [], _ => .inl (by rw [before])
  | _ :: _, [] => .inr (by rw [before])
  | [x], [y] => Text.isUpTo_total x y
  | [_], _ :: _ :: _ => .inl rfl
  | _ :: _ :: _, [_] => .inr rfl
  | x :: x' :: xs, y :: y' :: ys => by
    rw [before_cons_iff, before_cons_iff]
    by_cases hxy : x = y
    · obtain rfl := hxy
      exact (before_total (x' :: xs) (y' :: ys)).imp (fun h => .inr ⟨rfl, h⟩)
        fun h => .inr ⟨rfl, h⟩
    · exact (Text.isUpTo_total x y).imp (fun h => .inl ⟨hxy, h⟩) fun h => .inl ⟨Ne.symm hxy, h⟩

theorem before_antisymm : ∀ {a b : List Text}, before a b = true → before b a = true → a = b
  | [], [], _, _ => rfl
  | [x], [y], hab, hba => by rw [Text.isUpTo_antisymm hab hba]
  | x :: x' :: xs, y :: y' :: ys, hab, hba => by
    rw [before_cons_iff] at hab hba
    rcases hab with ⟨hxy, hab⟩ | ⟨rfl, hab⟩
    · rcases hba with ⟨-, hba⟩ | ⟨rfl, -⟩
      · exact absurd (Text.isUpTo_antisymm hab hba) hxy
      · exact absurd rfl hxy
    · rcases hba with ⟨hyx, -⟩ | ⟨-, hba⟩
      · exact absurd rfl hyx
      · rw [before_antisymm hab hba]

theorem before_trans (hab : before a b = true) (hbc : before b c = true) : before a c = true := by
  induction a generalizing b c with
  | nil => rw [before]
  | cons x xs ih =>
    cases b with
    | nil => cases hab
    | cons y ys =>
    cases c with
    | nil => cases hbc
    | cons z zs =>
    cases xs with
    | nil =>
      -- a file of the directory comes before all that is in its subdirectories
      cases zs with
      | nil =>
        cases ys with
        | nil => exact Text.isUpTo_trans hab hbc
        | cons y' ys => cases hbc
      | cons z' zs => rfl
    | cons x' xs =>
      cases ys with
      | nil => cases hab
      | cons y' ys =>
      cases zs with
      | nil => cases hbc
      | cons z' zs =>
      rw [before_cons_iff] at *
      rcases hab with ⟨hxy, hab⟩ | ⟨rfl, hab⟩
      · rcases hbc with ⟨hyz, hbc⟩ | ⟨rfl, -⟩
        · refine .inl ⟨?_, Text.isUpTo_trans hab hbc⟩
          rintro rfl
          exact hxy (Text.isUpTo_antisymm hab hbc)
        · exact .inl ⟨hxy, hab⟩
      · rcases hbc with ⟨hyz, hbc⟩ | ⟨rfl, hbc⟩
        · exact .inl ⟨hyz, hbc⟩
        · exact .inr ⟨rfl, ih hab hbc⟩

end Order

/-! ## The files that are found -/

open Disk

variable {d : Disk} {root : Path} {place : Place} {names : List Text} {node : Node}
  {excluded : List Text} {ignored : Text → Bool}

theorem mem_below_iff (hnodup : (d.entries.map Prod.fst).Nodup) :
    (names, node) ∈ d.below place ↔ names ≠ [] ∧ d.at? (place ++ names) = some node := by
  constructor
  · intro hmem
    obtain ⟨⟨q, node⟩, he, heq⟩ := List.mem_map.1 hmem
    cases heq
    obtain ⟨he, hbelow⟩ := List.mem_filter.1 he
    simp only [Bool.and_eq_true, decide_eq_true_eq] at hbelow
    obtain ⟨names, rfl⟩ := isPrefixOf_iff.1 hbelow.1
    have hne : names ≠ [] := by
      rintro rfl
      exact hbelow.2 (List.append_nil _)
    rw [List.drop_left]
    exact ⟨hne, at?_of_mem hnodup he (by simp [hne])⟩
  · rintro ⟨hne, hat⟩
    refine List.mem_map.2 ⟨(place ++ names, node), List.mem_filter.2
      ⟨mem_entries_of_at? hat (by simp [hne]), ?_⟩, by rw [List.drop_left]⟩
    simp [hne]

theorem nodup_below (hnodup : (d.entries.map Prod.fst).Nodup) (place : Place) :
    ((d.below place).map Prod.fst).Nodup := by
  rw [below, List.map_map]
  refine List.Nodup.of_map (place ++ ·) ?_
  rw [List.map_map]
  have hid : ∀ e ∈ d.entries.filter fun e => place.isPrefixOf e.1 && e.1 ≠ place,
      ((place ++ ·) ∘ (Prod.fst ∘ fun e : Place × Node => (e.1.drop place.length, e.2))) e =
        e.1 := by
    intro e he
    have hpre := (List.mem_filter.1 he).2
    rw [Bool.and_eq_true] at hpre
    obtain ⟨names, hnames⟩ := isPrefixOf_iff.1 hpre.1
    simp only [Function.comp, hnames, List.drop_left]
  rw [List.map_congr_left hid]
  exact hnodup.sublist (List.filter_sublist.map _)

section Root

variable (hway : Leads d true linkLimit [] (d.absolute root).parts place)
  (hdir : d.at? place = some .dir)

include hway hdir

theorem files_of_leads (excluded : List Text) (ignored : Text → Bool) :
    files d root excluded ignored =
      (((d.below place).filter fun e => isFile d place e.1 e.2 && isOpen excluded e.1 &&
        !ignored (Text.join ['/'] e.1)).map Prod.fst).mergeSort before := by
  rw [files, locate_eq_ok_iff.2 hway]
  exact if_pos hdir

/-- A walk finds the entries below a directory that count as files. -/
theorem mem_files_iff (hnodup : (d.entries.map Prod.fst).Nodup) :
    names ∈ files d root excluded ignored ↔ names ≠ [] ∧
      (∃ node, d.at? (place ++ names) = some node ∧ isFile d place names node = true) ∧
      isOpen excluded names = true ∧ ignored (Text.join ['/'] names) = false := by
  rw [files_of_leads hway hdir, List.mem_mergeSort, List.mem_map]
  constructor
  · rintro ⟨⟨names, node⟩, he, rfl⟩
    obtain ⟨hmem, hseen⟩ := List.mem_filter.1 he
    obtain ⟨hne, hat⟩ := (mem_below_iff hnodup).1 hmem
    simp only [Bool.and_eq_true, Bool.not_eq_true'] at hseen
    exact ⟨hne, ⟨node, hat, hseen.1.1⟩, hseen.1.2, hseen.2⟩
  · rintro ⟨hne, ⟨node, hat, hfile⟩, hopen, hseen⟩
    refine ⟨(names, node), List.mem_filter.2 ⟨(mem_below_iff hnodup).2 ⟨hne, hat⟩, ?_⟩, rfl⟩
    simp [hfile, hopen, hseen]

theorem nodup_files (hnodup : (d.entries.map Prod.fst).Nodup) :
    (files d root excluded ignored).Nodup := by
  rw [files_of_leads hway hdir, (List.mergeSort_perm _ _).nodup_iff]
  exact (nodup_below hnodup place).sublist (List.filter_sublist.map _)

theorem pairwise_files :
    (files d root excluded ignored).Pairwise fun a b => before a b = true := by
  rw [files_of_leads hway hdir]
  have htotal : ∀ a b, (before a b || before b a) = true := by
    intro a b
    rw [Bool.or_eq_true]
    exact before_total a b
  have htrans : ∀ a b c, before a b = true → before b c = true → before a c = true :=
    fun _ _ _ => before_trans
  exact List.pairwise_mergeSort htrans htotal _

end Root

/-! ## What is read of them -/

/-- What is read of files in the order of a walk depends on the files of which something is read,
and not on the others. -/
theorem filterMap_eq {α : Type} {l l' : List (List Text)} {f f' : List Text → Option α}
    (hl : l.Pairwise fun a b => before a b = true) (hl' : l'.Pairwise fun a b => before a b = true)
    (hnodup : l.Nodup) (hnodup' : l'.Nodup)
    (h : ∀ names a, names ∈ l ∧ f names = some a ↔ names ∈ l' ∧ f' names = some a) :
    l.filterMap f = l'.filterMap f' := by
  have hread : ∀ {l : List (List Text)} {f : List Text → Option α},
      l.filterMap f = (l.filter fun names => (f names).isSome).filterMap f := by
    intro l f
    rw [List.filterMap_filter]
    refine List.filterMap_congr fun names _ => ?_
    cases f names <;> rfl
  -- the files of which something is read are the same ones, and in the same order
  have hsame : l.filter (fun names => (f names).isSome) =
      l'.filter (fun names => (f' names).isSome) := by
    refine List.Perm.eq_of_pairwise (fun _ _ _ _ hab hba => before_antisymm hab hba)
      (hl.filter _) (hl'.filter _) ?_
    rw [List.perm_ext_iff_of_nodup (hnodup.filter _) (hnodup'.filter _)]
    intro names
    simp only [List.mem_filter, Option.isSome_iff_exists, ← exists_and_left, h]
  rw [hread, hread (f := f'), ← hsame]
  refine List.filterMap_congr fun names hmem => ?_
  obtain ⟨hmem, hsome⟩ := List.mem_filter.1 hmem
  obtain ⟨a, ha⟩ := Option.isSome_iff_exists.1 hsome
  rw [ha, ((h names a).1 ⟨hmem, ha⟩).2]

end Walk
end MarkerBoard
