import SearchClient.Proofs.Json.WrittenRecords
import SearchClient.ServerError.Cause

/-!
# Records built by changes

The slots of a cause and of a shard failure give changes of the record that is being built. What was
built from a tree is taken apart one slot at a time (`Builds.change`): the value of the slot was
read where it stands, or is the blank one (`Stands`). What was written is put together again one
slot at a time in the same way (`Restores.change`).
-/

set_option autoImplicit false
set_option relaxedAutoImplicit false

namespace SearchClient.ErrorCause

open Json

variable {σ β : Type} {t : Tree} {i : Nat} {name : String} {read : Tree → Except Fault β}
  {set : β → σ → σ} {blank value : β} {slots : List (Slot (σ → σ))} {c c' : σ}

/-! ### What was built -/

/-- A value was read from the part at a place, which is the only one there, or it is blank where
there is none. -/
structure Stands (t : Tree) (i : Nat) (name : String) (read : Tree → Except Fault β)
    (blank value : β) : Prop where
  found : ∀ p, t.Part i name p → read p = .ok value
  absent : (∀ p, ¬ t.Part i name p) → value = blank

/-- What stands at a place was read, unless it is blank. -/
theorem Stands.blank_or_read (h : Stands t i name read blank value) :
    value = blank ∨ ∃ p, read p = .ok value := by
  by_cases hpart : ∃ p, t.Part i name p
  · obtain ⟨p, hp⟩ := hpart
    exact .inr ⟨p, h.found p hp⟩
  · exact .inl (h.absent (not_exists.mp hpart))

theorem Stands.exists_read {value : Option β} {v : β}
    (h : Stands t i name (Tree.readOptional read) none value) (hvalue : value = some v) :
    ∃ p, read p = .ok v := by
  obtain rfl := hvalue
  obtain hblank | ⟨p, hp⟩ := h.blank_or_read
  · cases hblank
  · obtain ⟨-, hnone⟩ | ⟨-, _, hread, hsome⟩ := readOptional_eq_ok.mp hp
    · cases hnone
    · obtain rfl := Option.some.inj hsome
      exact ⟨p, hread⟩

theorem Stands.exists_item_read {room : Nat} {read : Nat → Tree → Except Fault β} {values : List β}
    (h : Stands t i name (Tree.readList room read) [] values) :
    ∀ v ∈ values, ∃ inner p, read inner p = .ok v := by
  obtain rfl | ⟨p, hp⟩ := h.blank_or_read
  · exact nofun
  · exact exists_read_of_readList hp

/-- A record comes from another by the changes that slots read from a tree. -/
def Builds (t : Tree) (i : Nat) (slots : List (Slot (σ → σ))) (c c' : σ) : Prop :=
  ∃ changes, Placed t i slots changes ∧ changes.foldl (fun c change ↦ change c) c = c'

theorem Builds.done (h : Builds t i [] c c') : c = c' := by
  obtain ⟨changes, hplaced, hchanged⟩ := h
  cases hplaced
  exact hchanged

/-- The first of the changes set what stands at its place. -/
theorem Builds.change (h : Builds t i (change name read set :: slots) c c')
    (hblank : set blank c = c) :
    ∃ value, Stands t i name read blank value ∧ Builds t (i + 1) slots (set value c) c' := by
  obtain ⟨changes, hplaced, hchanged⟩ := h
  cases hplaced with
  | @cons _ _ _ f later hunique hread hmissing hlater =>
    by_cases hpart : ∃ p, t.Part i name p
    · obtain ⟨p, hp⟩ := hpart
      obtain ⟨value, hvalue, rfl⟩ := map_eq_ok.mp (hread p hp)
      refine ⟨value, ⟨fun p' hp' ↦ ?_, fun hnone ↦ absurd hp (hnone p)⟩, later, hlater, hchanged⟩
      exact hunique p p' hp hp' ▸ hvalue
    · have hnone := not_exists.mp hpart
      have hid : f = id := by
        rcases hmissing hnone with hid | hid
        · cases hid
        · cases hid
          rfl
      refine ⟨blank, ⟨fun p hp ↦ absurd hp (hnone p), fun _ ↦ rfl⟩, later, hlater, ?_⟩
      rw [← hchanged, hid, hblank]
      rfl

/-! ### What is restored -/

variable {places : List (String × Option Json)}

/-- A record comes from another by the changes that slots read back from what is written at their
places. -/
def Restores (slots : List (Slot (σ → σ))) (places : List (String × Option Json)) (c c' : σ) :
    Prop :=
  ∃ changes, Rereads slots places changes ∧ changes.foldl (fun c change ↦ change c) c = c'

theorem Restores.done : Restores [] [] c c :=
  ⟨[], .nil, rfl⟩

/-- A slot restores a value that is read back, or that was left out because it changes nothing. -/
theorem Restores.change {written : Option Json} (h : Restores slots places (set value c) c')
    (hread : ∀ j, written = some j → read j.toTree = .ok value)
    (hblank : written = none → set value c = c) :
    Restores (change name read set :: slots) ((name, written) :: places) c c' := by
  obtain ⟨changes, hrereads, hchanged⟩ := h
  cases written with
  | none =>
    have hsame : (id c : σ) = set value c := (hblank rfl).symm
    exact ⟨id :: changes, .omitted rfl hrereads, by rw [List.foldl_cons, hsame, hchanged]⟩
  | some j =>
    have hset : (read j.toTree).map set = .ok (set value) :=
      map_eq_ok.mpr ⟨value, hread j rfl, rfl⟩
    exact ⟨set value :: changes, .written hset hrereads, hchanged⟩

theorem Restores.always {j : Json} (h : Restores slots places (set value c) c')
    (hread : read j.toTree = .ok value) :
    Restores (ErrorCause.change name read set :: slots) ((name, some j) :: places) c c' := by
  refine h.change (fun j' hj' ↦ ?_) nofun
  obtain rfl := Option.some.inj hj'
  exact hread

/-- A value that may be missing is restored if null does not stand for it. -/
theorem Restores.optional {set : Option β → σ → σ} {value : Option β} {write : β → Json}
    (h : Restores slots places (set value c) c')
    (hread : ∀ v, value = some v → write v ≠ .null ∧ read (write v).toTree = .ok v)
    (hblank : set none c = c) :
    Restores (ErrorCause.change name (Tree.readOptional read) set :: slots)
      ((name, value.map write) :: places) c c' := by
  refine h.change (fun j hj ↦ ?_) fun hnone ↦ ?_
  · obtain ⟨v, rfl, rfl⟩ := Option.map_eq_some_iff.mp hj
    obtain ⟨hnull, hv⟩ := hread v rfl
    exact readOptional_eq_ok.mpr (.inr ⟨toTree_eq_null.not.mpr hnull, v, hv, rfl⟩)
  · obtain rfl := Option.map_eq_none_iff.mp hnone
    exact hblank

theorem Restores.text {set : Option String → σ → σ} {value : Option String}
    (h : Restores slots places (set value c) c') (hblank : set none c = c) :
    Restores (ErrorCause.change name (Tree.readOptional Tree.readText) set :: slots)
      ((name, value.map .string) :: places) c c' :=
  h.optional (fun _ _ ↦ ⟨nofun, readText_toTree.mpr rfl⟩) hblank

theorem Restores.shard {room : Nat} {set : Option String → σ → σ} {value : Option String}
    (h : Restores slots places (set value c) c') (hblank : set none c = c) :
    Restores (ErrorCause.change name (readShard room) set :: slots)
      ((name, value.map .string) :: places) c c' := by
  refine h.change (fun j hj ↦ ?_) fun hnone ↦ ?_
  · obtain ⟨s, rfl, rfl⟩ := Option.map_eq_some_iff.mp hj
    rfl
  · obtain rfl := Option.map_eq_none_iff.mp hnone
    exact hblank

/-- What is written of a list: nothing if it is empty. -/
def listed {α : Type} (write : List α → Json) : List α → Option Json
  | [] => none
  | items => some (write items)

theorem listed_of_ne_nil {α : Type} {write : List α → Json} {items : List α} (h : items ≠ []) :
    listed write items = some (write items) := by
  cases items with
  | nil => exact absurd rfl h
  | cons => rfl

theorem Restores.listed {α : Type} {read : Tree → Except Fault (List α)} {set : List α → σ → σ}
    {items : List α} {write : List α → Json} (h : Restores slots places (set items c) c')
    (hread : ∀ j, ErrorCause.listed write items = some j → read j.toTree = .ok items)
    (hblank : set [] c = c) :
    Restores (ErrorCause.change name read set :: slots)
      ((name, ErrorCause.listed write items) :: places) c c' := by
  refine h.change hread fun hnone ↦ ?_
  cases items with
  | nil => exact hblank
  | cons item items => cases hnone

end SearchClient.ErrorCause
