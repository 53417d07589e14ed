import SearchClient.Proofs.ServerError.Demands
import SearchClient.ServerError.Basic

/-!
# Errors that are recognised

The body of an answer carries a server error only if it is read as one to its end.
`exists_ofBody?_iff` says which objects are: the error has to be a text or to meet all demands of a
cause, the status has to be null or of sixteen bits, and neither may come twice (`Recognisable`). An
error that is not recognised is not seen at all, also where the body is sound and has an `error`.
-/

set_option autoImplicit false
set_option relaxedAutoImplicit false

namespace SearchClient.ServerError

open Json ErrorCause

variable {room status : Nat} {body : Text.Bytes} {spelling : List Text.Glyph}
  {members : List (Quoted × Tree)} {ending : Ending} {t : Tree} {e : ServerError}

/-- What has to be true of a body that is an object for its error to be seen. Where nothing may
follow the object and none of it may be broken, the rest is about the values of its members. -/
structure Recognisable (members : List (Quoted × Tree)) (ending : Ending) (trailing : Bool) :
    Prop where
  ended : ending = .closed
  alone : trailing = false
  named : ∀ m ∈ members, ∃ name, m.1.content = .ok name
  errorOnce : OnlyOnce members "error"
  statusOnce : OnlyOnce members "status"
  there : ∃ t, Named members "error" t
  error : ∀ t, Named members "error" t →
    t.Sound (depthLimit - 1) ∧ Meets (.either .text (.record .cause)) t
  status : ∀ t, Named members "status" t → Meets (.optional (.integer 0 65535)) t
  others : ∀ name t, Named members name t → name ≠ "error" → name ≠ "status" → t.skip = .ok ()

theorem apart_slots (room : Nat) : Apart (slots room) where
  nodup := by
    change ["error", "status"].Nodup
    decide
  single := by simp [slots]

/-- What an envelope holds was read at its places. -/
structure EnvelopeRead (room : Nat) (t : Tree) (cause : Option ErrorCause) (code : Option Int) :
    Prop where
  error : Stands t 0 "error" (Tree.readOptional (readCauseOrText room)) none cause
  status : Stands t 1 "status" (Tree.readOptional (Tree.readInteger 0 65535)) none code

/-- The first value of a record was read at its place, or is the blank one. -/
theorem exists_of_placed {α β : Type} {i : Nat} {name : String} {read : Tree → Except Fault β}
    {blank : β} {part : β → α} {slots : List (Slot α)} {values : List α}
    (h : Placed t i (⟨name, [], fun t ↦ (read t).map part, .always (part blank)⟩ :: slots) values) :
    ∃ value later, values = part value :: later ∧ Stands t i name read blank value ∧
      Placed t (i + 1) slots later := by
  cases h with
  | @cons _ _ _ v later hunique hread hmissing hlater =>
    by_cases hpart : ∃ p, t.Part i name p
    · obtain ⟨p, hp⟩ := hpart
      obtain ⟨value, hvalue, rfl⟩ := map_eq_ok.mp (hread p hp)
      refine ⟨value, later, rfl, ⟨fun p' hp' ↦ ?_, fun hnone ↦ absurd hp (hnone p)⟩, hlater⟩
      exact hunique p p' hp hp' ▸ hvalue
    · have hnone := not_exists.mp hpart
      obtain hblank | hblank := hmissing hnone
      · cases hblank
      · cases hblank
        exact ⟨blank, later, rfl, ⟨fun p hp ↦ absurd hp (hnone p), fun _ ↦ rfl⟩, hlater⟩

theorem part_object {i : Nat} {name : String} :
    (Tree.object spelling members ending).Part i name t ↔ Named members name t := by
  refine ⟨fun h ↦ ?_, .member⟩
  cases h with
  | member h => exact h

theorem envelopeRead_of_readRecord {values : List Part} {rest : List (String × Json)}
    (h : readRecord (room + 1) slots false t = .ok (values, rest)) :
    ∃ cause code, values = [.error cause, .status code] ∧ EnvelopeRead room t cause code := by
  obtain ⟨inner, hinner, hplaced⟩ := placed_of_readRecord apart_slots h
  obtain rfl := Nat.succ.inj hinner
  obtain ⟨cause, _, rfl, herror, hplaced⟩ := exists_of_placed hplaced
  obtain ⟨code, _, rfl, hstatus, hplaced⟩ := exists_of_placed hplaced
  cases hplaced
  exact ⟨cause, code, rfl, herror, hstatus⟩

/-- An envelope is read exactly if its record is. -/
theorem exists_readEnvelope_iff : (∃ read, readEnvelope (room + 1) t = .ok read) ↔
    ∃ read, readRecord (room + 1) slots false t = .ok read := by
  constructor
  · rintro ⟨_, h⟩
    obtain ⟨read, hread, -⟩ := bind_eq_ok.mp h
    exact ⟨read, hread⟩
  · rintro ⟨⟨values, rest⟩, hread⟩
    obtain ⟨cause, code, rfl, -⟩ := envelopeRead_of_readRecord hread
    exact ⟨(cause, code), bind_eq_ok.mpr ⟨_, hread, rfl⟩⟩

theorem envelopeRead_of_readEnvelope {cause : Option ErrorCause} {code : Option Int}
    (h : readEnvelope (room + 1) t = .ok (cause, code)) : EnvelopeRead room t cause code := by
  obtain ⟨⟨values, rest⟩, hread, h⟩ := bind_eq_ok.mp h
  obtain ⟨_, _, rfl, henvelope⟩ := envelopeRead_of_readRecord hread
  obtain ⟨rfl, rfl⟩ := Prod.mk.inj (Except.ok.inj h)
  exact henvelope

theorem read_eq_ok {α : Type} {source : Source} {reader : Tree → Except Fault α} {value : α} :
    source.read reader = .ok value ↔ reader source.root = .ok value ∧ source.trailing = false := by
  rw [Source.read, bind_eq_ok]
  cases source.trailing <;> simp

/-- A body carries the server error that its envelope holds, with the status of the answer if it has
none of its own. -/
theorem ofBody?_eq_some : ofBody? body status = some e ↔
    ∃ code, readEnvelope depthLimit (Source.ofBytes body).root = .ok (some e.cause, code) ∧
      (Source.ofBytes body).trailing = false ∧ e.status = (code.map Int.toNat).getD status := by
  have hread {cause : Option ErrorCause} {code : Option Int} :
      (Source.ofBytes body).read (readEnvelope depthLimit) = .ok (cause, code) ↔
        readEnvelope depthLimit (Source.ofBytes body).root = .ok (cause, code) ∧
          (Source.ofBytes body).trailing = false := read_eq_ok
  constructor
  · intro h
    unfold ofBody? at h
    split at h
    · rename_i cause code hok
      cases h
      exact ⟨code, (hread.mp hok).1, (hread.mp hok).2, rfl⟩
    · cases h
  · rintro ⟨code, henvelope, htrailing, hstatus⟩
    unfold ofBody?
    rw [hread.mpr ⟨henvelope, htrailing⟩]
    exact congrArg some (congrArg (ServerError.mk e.cause) hstatus.symm)

section Object

/-- The members of an envelope fit its slots exactly if neither name comes twice and each value can
be read. -/
theorem membersFit_iff : MembersFit room (slots room) false members ↔
    (∀ m ∈ members, ∃ name, m.1.content = .ok name) ∧
      (OnlyOnce members "error" ∧ OnlyOnce members "status") ∧
      (∀ t, Named members "error" t →
        t = .null ∨ t.Sound room ∧ Meets (.either .text (.record .cause)) t) ∧
      (∀ t, Named members "status" t → Meets (.optional (.integer 0 65535)) t) ∧
      ∀ name t, Named members name t → name ≠ "error" → name ≠ "status" → t.skip = .ok () := by
  have herror (t : Tree) :
      (∃ part, (t.readOptional (readCauseOrText room)).map Part.error = .ok part) ↔
        t = .null ∨ t.Sound room ∧ Meets (.either .text (.record .cause)) t := by
    rw [exists_map_eq_ok, exists_readOptional_iff, exists_readCauseOrText_iff]
  have hstatus (t : Tree) : (∃ part,
      (t.readOptional (Tree.readInteger 0 65535)).map Part.status = .ok part) ↔
        Meets (.optional (.integer 0 65535)) t := by
    rw [exists_map_eq_ok, exists_readOptional_iff, exists_readInteger_iff, meets_optional]
  constructor
  · intro h
    have hplaced := List.forall_mem_cons.mp h.placed
    have honce := List.forall_mem_cons.mp h.once
    refine ⟨h.named, ⟨honce.1, honce.2 _ List.mem_cons_self⟩,
      fun t ht ↦ (herror t).mp (hplaced.1 t ht),
      fun t ht ↦ (hstatus t).mp (hplaced.2 _ List.mem_cons_self t ht), fun name t ht hne hne' ↦ ?_⟩
    exact h.others name t ht (by simpa [slots] using ⟨hne.symm, hne'.symm⟩)
  · rintro ⟨hnamed, ⟨honce, honce'⟩, herrors, hstatuses, hothers⟩
    refine ⟨hnamed, by simpa [slots] using ⟨honce, honce'⟩, ?_, fun name t ht hnone ↦ ?_⟩
    · refine List.forall_mem_cons.mpr ⟨fun t ht ↦ (herror t).mpr (herrors t ht), ?_⟩
      exact List.forall_mem_singleton.mpr fun t ht ↦ (hstatus t).mpr (hstatuses t ht)
    · obtain ⟨hne, hne'⟩ : name ≠ "error" ∧ name ≠ "status" := by
        simpa [slots, eq_comm] using hnone
      exact hothers name t ht hne hne'

variable (hroot : (Source.ofBytes body).root = .object spelling members ending)

include hroot in
/-- The error of an object is seen exactly if the object is recognisable. -/
theorem exists_ofBody?_iff : (∃ e, ofBody? body status = some e) ↔
    Recognisable members ending (Source.ofBytes body).trailing := by
  have hrecord : (∃ read, readEnvelope depthLimit (.object spelling members ending) = .ok read) ↔
      ending = .closed ∧
        MembersFit (depthLimit - 1) (slots (depthLimit - 1)) false members := by
    refine exists_readEnvelope_iff.trans ((exists_readRecord_object_iff apart_slots).trans ?_)
    constructor
    · rintro ⟨inner, hinner, hending, hfit, -⟩
      obtain rfl := Nat.succ.inj hinner
      exact ⟨hending, hfit⟩
    · rintro ⟨hending, hfit⟩
      exact ⟨_, rfl, hending, hfit, by simp [slots]⟩
  constructor
  · rintro ⟨e, h⟩
    obtain ⟨code, henvelope, htrailing, -⟩ := ofBody?_eq_some.mp h
    rw [hroot] at henvelope
    obtain ⟨hending, hfit⟩ := hrecord.mp ⟨_, henvelope⟩
    obtain ⟨hnamed, ⟨herrorOnce, hstatusOnce⟩, herrors, hstatuses, hothers⟩ :=
      membersFit_iff.mp hfit
    have hread := (envelopeRead_of_readEnvelope henvelope).error
    have hthere : ∃ t, Named members "error" t := by
      by_contra hnone
      have hblank := hread.absent fun p hp ↦ hnone ⟨p, part_object.mp hp⟩
      cases hblank
    refine ⟨hending, htrailing, hnamed, herrorOnce, hstatusOnce, hthere, fun t ht ↦ ?_, hstatuses,
      hothers⟩
    refine (herrors t ht).resolve_left ?_
    rintro rfl
    have hnull := hread.found .null (part_object.mpr ht)
    cases hnull
  · intro h
    have hfit : MembersFit (depthLimit - 1) (slots (depthLimit - 1)) false members :=
      membersFit_iff.mpr ⟨h.named, ⟨h.errorOnce, h.statusOnce⟩, fun t ht ↦ .inr (h.error t ht),
        h.status, h.others⟩
    obtain ⟨⟨cause, code⟩, henvelope⟩ := hrecord.mpr ⟨h.ended, hfit⟩
    obtain ⟨t, ht⟩ := h.there
    have hread := (envelopeRead_of_readEnvelope henvelope).error.found t (part_object.mpr ht)
    obtain ⟨rfl, -⟩ | ⟨-, c, -, rfl⟩ := readOptional_eq_ok.mp hread
    · obtain hnull | hnull := meets_either.mp (h.error .null ht).2
      · cases hnull
      · cases hnull
    · exact ⟨⟨c, (code.map Int.toNat).getD status⟩,
        ofBody?_eq_some.mpr ⟨code, hroot ▸ henvelope, h.alone, rfl⟩⟩

/-- The status of an error is that of its body, or else that of the answer. -/
structure StatusOf (members : List (Quoted × Tree)) (status : Nat) (found : Nat) : Prop where
  own : ∀ spelling i, Named members "status" (.number spelling (.ok (.integer i))) →
    (found : Int) = i
  other : (∀ spelling i, ¬ Named members "status" (.number spelling (.ok (.integer i)))) →
    found = status

include hroot in
theorem statusOf_ofBody? (h : ofBody? body status = some e) : StatusOf members status e.status := by
  obtain ⟨code, henvelope, -, hstatus⟩ := ofBody?_eq_some.mp h
  rw [hroot] at henvelope
  have hread := (envelopeRead_of_readEnvelope henvelope).status
  rw [hstatus]
  constructor
  · intro spelling' i hnamed
    obtain ⟨hnull, -⟩ | ⟨-, k, hk, rfl⟩ :=
      readOptional_eq_ok.mp (hread.found _ (part_object.mpr hnamed))
    · cases hnull
    · obtain ⟨⟨_, hsame⟩, hleast, -⟩ := readInteger_eq_ok.mp hk
      cases hsame
      exact Int.toNat_of_nonneg hleast
  · intro hnone
    cases code with
    | none => rfl
    | some k =>
      exfalso
      by_cases hnamed : ∃ t, Named members "status" t
      · obtain ⟨t, ht⟩ := hnamed
        obtain ⟨-, hblank⟩ | ⟨-, i, hi, -⟩ :=
          readOptional_eq_ok.mp (hread.found t (part_object.mpr ht))
        · cases hblank
        · obtain ⟨⟨spelling', rfl⟩, -⟩ := readInteger_eq_ok.mp hi
          exact hnone spelling' i ht
      · have hblank := hread.absent fun p hp ↦ hnamed ⟨p, part_object.mp hp⟩
        cases hblank

end Object

end SearchClient.ServerError
