import SearchClient.Proofs.Cluster.OneStartup
import SearchClient.Proofs.Cluster.ExactSniff

/-!
# How old the last sniff is

A request that is about to set out waits for the turn, and only then looks how old the last sniff
is. Whoever asks the cluster because the last sniff is old keeps the turn until the time of its own
is stored, so those that come after it find that one young: many requests that find the same sniff
old make one sniff (`Chronicle.add_le_of_stale`).

What is compared is the time that is stored, which in the beginning is that of no sniff: a client
counts as informed when it is made. A sniff after a fault reads the clock before it waits for the
turn, so it may put an earlier time in the place of a later one. No other sniff does
(`Chronicle.le_store`).
-/

set_option autoImplicit false
set_option relaxedAutoImplicit false

namespace SearchClient.Send

/-! ### Stored times -/

/-- The time that was stored last, or an earlier one if none was. -/
def lastStored (earlier : Nat) (story : List Happening) : Nat :=
  (story.findSome? (·.move.stored?)).getD earlier

/-- No sniff after a fault has stored a time before this one. -/
def NoneBefore (moment : Nat) (story : List Happening) : Prop :=
  ∀ h ∈ story, ∀ stored, h.move = .store .fault stored → moment ≤ stored

/-- A request has looked how old the last sniff is: it was younger than a lifespan, or the request
has asked the cluster itself. -/
def Looked (lifespan earlier who : Nat) (story : List Happening) : Prop :=
  ∃ since h before moment, story = since ++ h :: before ∧ h.who = who ∧
    (h.move = .weigh moment true ∧ moment < lastStored earlier before + lifespan ∨
      h.move = .weigh moment false ∧
        ∃ last ∈ since, last.who = who ∧ ∃ told, last.move = .finish .stale told)

/-- What holds of old sniffs whenever requests run together. -/
structure WellPaced (lifespan earlier : Nat) (requests : List Request)
    (c : Crowd (Except Failure Response)) (story : List Happening) : Prop where
  /-- After a time is stored nobody finds the last sniff old until its lifespan is over. -/
  apart : ∀ later old between new before occasion stored moment,
    story = later ++ old :: (between ++ new :: before) → new.move = .store occasion stored →
    NoneBefore stored between → old.move = .weigh moment false → stored + lifespan ≤ moment
  /-- So among requests that find a sniff old one at most is told new nodes. -/
  burst : ∀ later second between first before occasion stored moment,
    story = later ++ second :: (between ++ first :: before) →
    first.move = .store occasion stored → NoneBefore stored between →
    second.move = .store .stale moment → stored + lifespan ≤ moment
  /-- An attentive request begins a walk only after it looked how old the last sniff is. -/
  looked : ∀ later h before r, story = later ++ h :: before → h.move = .view →
    requests[h.who]? = some r → Attentive r → Looked lifespan earlier h.who before
  /-- A sniff in vain is no reason to give up before a walk. -/
  goesOn : ∀ j result, c.programs[j]? = some (.done result) →
    (∃ h ∈ story, h.who = j ∧ h.move = .finish .stale false) →
    (∃ h ∈ story, h.who = j ∧ h.move = .view) ∧ ¬ Stranded result

/-! ### Places on the way -/

namespace Place

/-- The request is in a sniff that it makes because the last one is old. -/
def isStale : Place → Bool
  | asking occasion | learnt occasion | kept occasion => occasion == .stale
  | _ => false

/-- The request has begun a walk. -/
def hasSetOut : Place → Bool
  | renewed | walking _ | trying .. | timed _ | due _ => true
  | learnt occasion | kept occasion => occasion == .fault
  | _ => false

/-- The request has given the turn away and may begin a walk, or has begun one. -/
def isOpen : Place → Bool
  | ready => true
  | place => place.hasSetOut

/-- The request knows that the last sniff is not old. -/
def isAssured : Place → Bool
  | young => true
  | place => place.isOpen

theorem holdsTurn_of_isStale {place : Place} (h : place.isStale = true) :
    place.holdsTurn = true := by
  cases place with
  | asking | kept => rfl
  | learnt occasion => exact holdsTurn_learnt fun hoccasion ↦ by rw [hoccasion] at h; cases h
  | _ => cases h

end Place

variable {s : Settings} {requests : List Request} {start : Scene}
  {c : Crowd (Except Failure Response)} {places : Nat → Place} {story later before : List Happening}
  {h : Happening} {r : Request} {j lifespan : Nat}

namespace Goes

variable [Url.Domain.Spelling] {who : Nat} {place place' : Place} {sc sc' : Scene} {move : Move}

/-- Only who has the turn stores a time. -/
theorem holdsTurn_of_stored {occasion : Occasion} {stored : Nat}
    (h : Goes s r who place sc (.store occasion stored) place' sc') :
    place.holdsTurn = true := by
  cases h with
  | store hoccasion => exact Place.holdsTurn_learnt hoccasion
  | storeFault => rfl

/-- A sniff that is no sniff after a fault stores the moment that was read last. -/
theorem stored_eq {occasion : Occasion} {stored : Nat}
    (h : Goes s r who place sc (.store occasion stored) place' sc')
    (hoccasion : occasion ≠ .fault) : stored = sc.moment ∧ place = .learnt occasion := by
  cases h with
  | store => exact ⟨rfl, rfl⟩
  | storeFault => exact absurd rfl hoccasion

/-- A sniff after a fault stores what it has read before. -/
theorem stored_fault {stored : Nat}
    (h : Goes s r who place sc (.store .fault stored) place' sc') : place = .due stored := by
  cases h with
  | store hoccasion => exact absurd rfl hoccasion
  | storeFault => rfl

/-- The time of a sniff after a fault is read and remembered. -/
theorem timed_of (h : Goes s r who place sc move place' sc') {stored : Nat}
    (hplace : place' = .timed stored ∨ place' = .due stored) :
    stored ≤ sc'.moment ∨ place = .timed stored ∨ place = .due stored := by
  cases h with
  | look | clock | ask => exact .inr hplace
  | read =>
    rcases hplace with hplace | hplace
    · cases hplace
      exact .inl (Nat.le_refl _)
    · cases hplace
  | enterFault =>
    rcases hplace with hplace | hplace
    · cases hplace
    · cases hplace
      exact .inr (.inl rfl)
  | finish =>
    rename_i occasion
    cases occasion <;> rcases hplace with hplace | hplace <;> cases hplace
  | _ => rcases hplace with hplace | hplace <;> cases hplace

/-- A request that finds the last sniff old finds it so. -/
theorem old_of_weigh {moment : Nat} (h : Goes s r who place sc (.weigh moment false) place' sc')
    (hlifespan : s.sniffLifespan = some lifespan) :
    lifespan ≤ moment - sc.shared.lastSniff := by
  cases h with
  | old hlifespan' _ hold =>
    rw [hlifespan, Option.some.injEq] at hlifespan'
    exact hlifespan' ▸ hold

/-- How a request comes into a sniff that it makes because the last one is old. -/
theorem isStale_of (h : Goes s r who place sc move place' sc') (hstale : place'.isStale = true) :
    (place.isStale = true ∧ (place' ≠ .kept .stale → place ≠ .kept .stale ∧ move.stored? = none)) ∨
      ∃ moment, move = .weigh moment false ∧ sc'.moment = moment := by
  cases h with
  | look | clock => exact .inl ⟨hstale, fun hkept ↦ ⟨hkept, rfl⟩⟩
  | ask => exact .inl ⟨hstale, fun hkept ↦ ⟨hkept, rfl⟩⟩
  | old => exact .inr ⟨_, rfl, rfl⟩
  | store =>
    refine .inl ⟨hstale, fun hkept ↦ absurd ?_ hkept⟩
    rw [eq_of_beq hstale]
  | finish =>
    rename_i occasion
    cases occasion <;> cases hstale
  | reseed hplace =>
    cases hplace with
    | asking => exact .inl ⟨hstale, fun _ ↦ ⟨nofun, rfl⟩⟩
    | walking => cases hstale
  | _ => cases hstale

/-- How a request comes to know that the last sniff is not old. -/
theorem isAssured_of (h : Goes s r who place sc move place' sc')
    (hlifespan : s.sniffLifespan = some lifespan) (hassured : place'.isAssured = true) :
    place.isAssured = true ∨
      (∃ moment, move = .weigh moment true ∧ moment - sc.shared.lastSniff < lifespan) ∨
      (place.isStale = true ∧ ∃ told, move = .finish .stale told) ∨
      asksWhenOld s r sc.shared = false := by
  cases h with
  | look | clock | ask | store => exact .inl hassured
  | spare hasks => exact .inr (.inr (.inr hasks))
  | young hlifespan' _ hyoung =>
    rw [hlifespan, Option.some.injEq] at hlifespan'
    exact .inr (.inl ⟨_, rfl, hlifespan' ▸ hyoung⟩)
  | carryOn => exact .inr (.inr (.inl ⟨rfl, false, rfl⟩))
  | finish =>
    rename_i occasion
    cases occasion with
    | startup => cases hassured
    | stale => exact .inr (.inr (.inl ⟨rfl, true, rfl⟩))
    | fault => exact .inl rfl
  | reseed hplace =>
    cases hplace with
    | asking hoccasion => exact absurd (eq_of_beq hassured) hoccasion
    | walking => exact .inl rfl
  | view hplace => rcases hplace with rfl | rfl <;> exact .inl rfl
  | direct | pass | enterFirst | leaveFirst | begin | strand | enterOld | old => cases hassured
  | _ => exact .inl rfl

/-- A request that may begin a walk, or has begun one, stays so. -/
theorem isOpen_of (h : Goes s r who place sc move place' sc')
    (hopen : place.isOpen = true ∨ ∃ told, move = .finish .stale told) : place'.isOpen = true := by
  rcases hopen with hopen | ⟨told, rfl⟩
  · cases h with
    | look | clock | ask | store => exact hopen
    | finish =>
      rename_i occasion
      rw [show occasion = .fault from eq_of_beq hopen]
      rfl
    | reseed hplace =>
      cases hplace with
      | asking => cases hopen
      | walking => rfl
    | direct | pass | enterFirst | leaveFirst | begin | strand | spare | enterOld | young | old
    | leaveYoung | carryOn => cases hopen
    | _ => rfl
  · cases h <;> rfl

/-- A walk begins where a request may set out, for the first time or anew. -/
theorem of_view (h : Goes s r who place sc .view place' sc') :
    place = .ready ∨ place = .renewed := by
  cases h with
  | view hplace => exact hplace

/-- A request that has set out began a walk. -/
theorem hasSetOut_of (h : Goes s r who place sc move place' sc')
    (hout : place'.hasSetOut = true) : place.hasSetOut = true ∨ move = .view := by
  cases h with
  | look | clock | ask | store => exact .inl hout
  | view => exact .inr rfl
  | finish =>
    rename_i occasion
    cases occasion with
    | startup | stale => cases hout
    | fault => exact .inl rfl
  | reseed hplace =>
    cases hplace with
    | asking hoccasion => exact absurd (eq_of_beq hout) hoccasion
    | walking => exact .inl rfl
  | direct | pass | enterFirst | leaveFirst | begin | strand | spare | enterOld | young | old
  | leaveYoung | carryOn => cases hout
  | _ => exact .inl rfl

end Goes

/-! ### Stories that go on -/

/-- A request at a place has found the last sniff old, no later than at a moment, and since then
nobody has stored a time but itself in the end. -/
def WeighedSince (latest who : Nat) (place : Place) (story : List Happening) : Prop :=
  ∃ since h before moment, story = since ++ h :: before ∧ h.who = who ∧
    h.move = .weigh moment false ∧ moment ≤ latest ∧
    (place ≠ .kept .stale → ∀ other ∈ since, other.move.stored? = none)

theorem WeighedSince.cons {latest latest' who : Nat} {place place' : Place}
    (hweighed : WeighedSince latest who place story) (hlatest : latest ≤ latest')
    (hkept : place' ≠ .kept .stale → place ≠ .kept .stale ∧ h.move.stored? = none) :
    WeighedSince latest' who place' (h :: story) := by
  obtain ⟨since, old, before, moment, rfl, hwho, hold, hmoment, hsince⟩ := hweighed
  refine ⟨h :: since, old, before, moment, rfl, hwho, hold, Nat.le_trans hmoment hlatest,
    fun hplace' ↦ ?_⟩
  obtain ⟨hplace, hmove⟩ := hkept hplace'
  exact List.forall_mem_cons.mpr ⟨hmove, hsince hplace⟩

/-- What is found in a list behind items of another sort. -/
theorem exists_of_append_cons_eq {α : Type} (keeps : α → Prop)
    {since between before rest : List α} {a b : α}
    (hlist : since ++ a :: before = between ++ b :: rest)
    (hsince : ∀ item ∈ since, ¬ keeps item) (ha : ¬ keeps a) (hb : keeps b) :
    ∃ between', between = since ++ a :: between' ∧ before = between' ++ b :: rest := by
  induction since generalizing between with
  | nil =>
    cases between with
    | nil =>
      rw [List.nil_append, List.nil_append, List.cons.injEq] at hlist
      exact absurd (hlist.1 ▸ hb) ha
    | cons item between =>
      rw [List.nil_append, List.cons_append, List.cons.injEq] at hlist
      exact ⟨between, by rw [hlist.1, List.nil_append], hlist.2⟩
  | cons item since ih =>
    obtain ⟨hitem, hsince⟩ := List.forall_mem_cons.mp hsince
    cases between with
    | nil =>
      rw [List.cons_append, List.nil_append, List.cons.injEq] at hlist
      exact absurd (hlist.1 ▸ hb) hitem
    | cons item' between =>
      rw [List.cons_append, List.cons_append, List.cons.injEq] at hlist
      obtain ⟨between', rfl, hbefore⟩ := ih hlist.2 hsince
      exact ⟨between', by rw [hlist.1, List.cons_append], hbefore⟩

/-- A request that has looked has looked for good. -/
theorem Looked.cons {earlier : Nat} (h : Looked lifespan earlier j story) {last : Happening} :
    Looked lifespan earlier j (last :: story) := by
  obtain ⟨since, looked, before, moment, rfl, hwho, hlooked⟩ := h
  refine ⟨last :: since, looked, before, moment, rfl, hwho, hlooked.imp_right ?_⟩
  rintro ⟨hold, told, htold, hfinished⟩
  exact ⟨hold, told, List.mem_cons_of_mem _ htold, hfinished⟩

namespace Chronicle

variable [Url.Domain.Spelling]

/-! ### Times that are stored -/

theorem lastSniff_eq (hstory : Chronicle s requests start c places story) :
    c.scene.shared.lastSniff = lastStored start.shared.lastSniff story := by
  induction hstory with
  | start => rfl
  | @happen _ _ _ _ _ _ move _ _ _ _ hgoes _ _ ih =>
    rw [hgoes.lastSniff_eq, ih, lastStored, lastStored, List.findSome?_cons]
    cases move.stored? <;> rfl

/-- No time is stored before it has come, nor remembered to be stored. -/
theorem le_moment (hstory : Chronicle s requests start c places story)
    (hstart : start.shared.lastSniff ≤ start.moment) :
    c.scene.shared.lastSniff ≤ c.scene.moment ∧
      ∀ j stored, places j = .timed stored ∨ places j = .due stored → stored ≤ c.scene.moment := by
  induction hstory with
  | start => exact ⟨hstart, fun _ _ hplace ↦ by rcases hplace with hplace | hplace <;> cases hplace⟩
  | @happen c c' places _ choice _ move place' _ _ _ hgoes _ _ ih =>
    obtain ⟨hlast, htimed⟩ := ih
    have hmoment := hgoes.moment_le
    constructor
    · rw [hgoes.lastSniff_eq]
      cases move with
      | store occasion stored =>
        refine Nat.le_trans ?_ hmoment
        by_cases hoccasion : occasion = .fault
        · subst hoccasion
          exact htimed choice.who stored (.inr hgoes.stored_fault)
        · exact Nat.le_of_eq (hgoes.stored_eq hoccasion).1
      | _ => exact Nat.le_trans hlast hmoment
    · intro j stored hplace
      by_cases hj : j = choice.who
      · subst hj
        rw [Function.update_self] at hplace
        rcases hgoes.timed_of hplace with hnow | hbefore
        · exact hnow
        · exact Nat.le_trans (htimed _ stored hbefore) hmoment
      · rw [Function.update_of_ne hj] at hplace
        exact Nat.le_trans (htimed j stored hplace) hmoment

/-- A sniff that is no sniff after a fault puts no earlier time in the place of a later one. -/
theorem le_store {occasion : Occasion} {stored : Nat}
    (hstory : Chronicle s requests start c places (h :: story))
    (hstart : start.shared.lastSniff ≤ start.moment) (hmove : h.move = .store occasion stored)
    (hoccasion : occasion ≠ .fault) : h.before.shared.lastSniff ≤ stored := by
  obtain ⟨c₁, places₁, r, place', hearlier, -, hbefore, -, hgoes, -⟩ := hstory.goes
  rw [hmove] at hgoes
  rw [(hgoes.stored_eq hoccasion).1, ← hbefore]
  exact (hearlier.le_moment hstart).1

/-- A stored time lasts unless a sniff after a fault stores an earlier one. -/
theorem stored_le_lastSniff {occasion : Occasion} {stored : Nat}
    (hstory : Chronicle s requests start c places (later ++ h :: before))
    (hstart : start.shared.lastSniff ≤ start.moment) (hmove : h.move = .store occasion stored)
    (hnone : NoneBefore stored later) : stored ≤ c.scene.shared.lastSniff := by
  induction later generalizing c places with
  | nil =>
    rw [hstory.lastSniff_eq, List.nil_append, lastStored, List.findSome?_cons, hmove]
    exact Nat.le_refl _
  | cons last later ih =>
    obtain ⟨hlast, hnone⟩ := List.forall_mem_cons.mp hnone
    obtain ⟨c₁, places₁, r, place', hearlier, -, hscene, hscene', hgoes, -⟩ := hstory.goes
    have hkept := ih hearlier hnone
    rw [hscene', hgoes.lastSniff_eq]
    cases hlastMove : last.move with
    | store occasion' stored' =>
      by_cases hoccasion : occasion' = .fault
      · exact hlast stored' (hoccasion ▸ hlastMove)
      · refine Nat.le_trans ?_ (hstory.le_store hstart hlastMove hoccasion)
        rwa [hscene] at hkept
    | _ => rwa [hscene] at hkept

/-! ### Sniffs that are old -/

/-- Nobody finds a sniff old before its lifespan is over. -/
theorem add_le_of_weigh {occasion : Occasion} {stored moment : Nat} {old : Happening}
    (hstory : Chronicle s requests start c places (old :: (later ++ h :: before)))
    (hstart : start.shared.lastSniff ≤ start.moment)
    (hlifespan : s.sniffLifespan = some lifespan) (hpositive : 0 < lifespan)
    (hmove : h.move = .store occasion stored) (hnone : NoneBefore stored later)
    (hold : old.move = .weigh moment false) : stored + lifespan ≤ moment := by
  obtain ⟨c₁, places₁, r, place', hearlier, -, hscene, -, hgoes, -⟩ := hstory.goes
  have hstored := hearlier.stored_le_lastSniff hstart hmove hnone
  rw [hold] at hgoes
  have hage := hgoes.old_of_weigh hlifespan
  rw [← hscene] at hage
  omega

/-- A request that makes a sniff because the last one is old has found it so. -/
theorem weighed_of_isStale (hstory : Chronicle s requests start c places story)
    (hturn : start.turn = none) (hstale : (places j).isStale = true) :
    WeighedSince c.scene.moment j (places j) story := by
  revert hstale
  refine hstory.follow (P := fun place sc story ↦ place.isStale = true →
    WeighedSince sc.moment j place story) j nofun ?_ ?_
  · intro c places story r move place' sc' _ _ hgoes ih hstale
    rcases hgoes.isStale_of hstale with ⟨hbefore, hkept⟩ | ⟨moment, hmove, hmoment⟩
    · exact (ih hbefore).cons hgoes.moment_le hkept
    · exact ⟨[], _, story, moment, rfl, rfl, hmove, Nat.le_of_eq hmoment.symm, fun _ ↦ by simp⟩
  · intro c places story r who move place' sc' hj earlier hgoes ih hstale
    refine (ih hstale).cons hgoes.moment_le fun hplace ↦ ⟨hplace, ?_⟩
    -- Another request would need the turn to store a time.
    cases move with
    | store =>
      exact absurd (earlier.eq_of_holdsTurn hturn hgoes.holdsTurn_of_stored
        (Place.holdsTurn_of_isStale hstale)) hj
    | _ => rfl

/-- Two sniffs that are told nodes are a lifespan apart if the second is made because of age. -/
theorem add_le_of_stale {occasion : Occasion} {stored moment : Nat} {second : Happening}
    (hstory : Chronicle s requests start c places (second :: (later ++ h :: before)))
    (hstart : start.shared.lastSniff ≤ start.moment) (hturn : start.turn = none)
    (hlifespan : s.sniffLifespan = some lifespan) (hpositive : 0 < lifespan)
    (hmove : h.move = .store occasion stored) (hnone : NoneBefore stored later)
    (hsecond : second.move = .store .stale moment) : stored + lifespan ≤ moment := by
  obtain ⟨c₁, places₁, r, place', hearlier, -, hscene, -, hgoes, -⟩ := hstory.goes
  rw [hsecond] at hgoes
  obtain ⟨hmoment, hplace⟩ := hgoes.stored_eq (by decide)
  obtain ⟨since, old, early, found, hlist, -, hold, hfound, hsince⟩ :=
    hearlier.weighed_of_isStale hturn (by rw [hplace]; rfl)
  -- The first time was stored before the second request found the sniff old.
  obtain ⟨between, rfl, rfl⟩ := exists_of_append_cons_eq (·.move.stored? ≠ none) hlist.symm
    (fun other hother ↦ not_not_intro (hsince (by rw [hplace]; nofun) other hother))
    (by rw [hold]; exact not_not_intro rfl) (by rw [hmove]; nofun)
  rw [List.append_assoc, List.cons_append] at hearlier
  obtain ⟨c₂, places₂, hweighed⟩ := hearlier.earlier
  have hapart := hweighed.add_le_of_weigh hstart hlifespan hpositive hmove
    (fun other hother ↦ hnone other (List.mem_append_right _ (List.mem_cons_of_mem _ hother))) hold
  rw [hmoment, ← hscene]
  exact Nat.le_trans hapart hfound

/-! ### Requests look before they set out -/

/-- An attentive request that knows that the last sniff is not old has looked. -/
theorem looked_of_isAssured (hstory : Chronicle s requests start c places story)
    (hkind : start.shared.pool.kind = .sniffing) (hturn : start.turn = none)
    (hlifespan : s.sniffLifespan = some lifespan) (hrequest : requests[j]? = some r)
    (hr : Attentive r) (hassured : (places j).isAssured = true) :
    Looked lifespan start.shared.lastSniff j story := by
  revert hassured
  refine hstory.follow (P := fun place _ story ↦ place.isAssured = true →
    Looked lifespan start.shared.lastSniff j story) j nofun ?_ ?_
  · intro c places story r' move place' sc' earlier hrequest' hgoes ih hassured
    rw [hrequest, Option.some.injEq] at hrequest'
    subst hrequest'
    rcases hgoes.isAssured_of hlifespan hassured with
      hbefore | ⟨moment, hmove, hyoung⟩ | ⟨hstale, htold⟩ | hspared
    · exact (ih hbefore).cons
    · refine ⟨[], _, story, moment, rfl, rfl, .inl ⟨hmove, ?_⟩⟩
      rw [earlier.lastSniff_eq] at hyoung
      omega
    · obtain ⟨since, h, before, moment, rfl, hwho, hweigh, -⟩ :=
        earlier.weighed_of_isStale hturn hstale
      exact ⟨_ :: since, h, before, moment, rfl, hwho,
        .inr ⟨hweigh, _, List.mem_cons_self, rfl, htold⟩⟩
    · rw [asksWhenOld, hlifespan, earlier.kind_eq, hkind, hr.2] at hspared
      cases hspared
  · intro _ _ _ _ _ _ _ _ _ _ _ ih hassured
    exact (ih hassured).cons

/-- A request whose sniff is over, told or not, may begin a walk or has begun one. -/
theorem isOpen_of_finish (hstory : Chronicle s requests start c places story) {told : Bool}
    (hh : h ∈ story) (hmove : h.move = .finish .stale told) : (places h.who).isOpen = true := by
  revert hh
  refine hstory.follow (P := fun place _ story ↦ h ∈ story → place.isOpen = true) h.who nofun ?_ ?_
  · intro c places story r move place' sc' _ _ hgoes ih hh
    rcases List.mem_cons.mp hh with hlatest | hh
    · rw [hlatest] at hmove
      exact hgoes.isOpen_of (.inr ⟨told, hmove⟩)
    · exact hgoes.isOpen_of (.inl (ih hh))
  · intro _ _ _ _ _ _ _ _ hj _ _ ih hh
    refine ih ((List.mem_cons.mp hh).resolve_left fun hlatest ↦ hj ?_)
    rw [hlatest]

/-- A request that has set out has begun a walk. -/
theorem view_of_hasSetOut (hstory : Chronicle s requests start c places story)
    (hout : (places j).hasSetOut = true) : ∃ h ∈ story, h.who = j ∧ h.move = .view := by
  revert hout
  refine hstory.follow (P := fun place _ story ↦ place.hasSetOut = true →
    ∃ h ∈ story, h.who = j ∧ h.move = .view) j nofun ?_ ?_
  · intro c places story r move place' sc' _ _ hgoes ih hout
    rcases hgoes.hasSetOut_of hout with hbefore | hmove
    · obtain ⟨h, hh, hview⟩ := ih hbefore
      exact ⟨h, List.mem_cons_of_mem _ hh, hview⟩
    · exact ⟨_, List.mem_cons_self, rfl, hmove⟩
  · intro _ _ _ _ _ _ _ _ _ _ _ ih hout
    obtain ⟨h, hh, hview⟩ := ih hout
    exact ⟨h, List.mem_cons_of_mem _ hh, hview⟩

/-- A request that is over although its sniff was in vain has begun a walk. -/
theorem view_of_done (hstory : Chronicle s requests start c places story)
    {result : Except Failure Response} (hdone : c.programs[j]? = some (.done result))
    (hopen : (places j).isOpen = true) :
    (∃ h ∈ story, h.who = j ∧ h.move = .view) ∧ ¬ Stranded result := by
  rcases hstory.final hdone with ⟨hplace, -⟩ | hconcluded
  · rw [hplace] at hopen
    cases hopen
  · refine ⟨hstory.view_of_hasSetOut ?_, hconcluded.notStranded⟩
    have hends := hconcluded.ends
    generalize places j = place at hends hopen
    cases hends with
    | fresh | bound => cases hopen
    | renewed | walking | trying => rfl

end Chronicle

/-- However many requests run together: once the time of a sniff is stored, nobody asks the cluster
because of age until its lifespan is over, as long as no sniff after a fault stores an earlier time;
so of many requests that find a sniff old one at most is told new nodes. An attentive request begins
a walk only after it found the stored time, or at first that of no sniff, younger than a lifespan,
or has asked the cluster, and goes on if nobody told. -/
theorem old_sniffs_are_well_paced [Url.Domain.Spelling] {choices : List Choice}
    (hkind : start.shared.pool.kind = .sniffing) (hlifespan : s.sniffLifespan = some lifespan)
    (hpositive : 0 < lifespan) (hstart : start.shared.lastSniff ≤ start.moment)
    (hturn : start.turn = none)
    (hplay : (Crowd.ofSends s requests start).play choices = some c) :
    (∃ places story, Chronicle s requests start c places story) ∧
      ∀ places story, Chronicle s requests start c places story →
        WellPaced lifespan start.shared.lastSniff requests c story := by
  refine ⟨exists_chronicle hplay, fun places story hstory ↦ ⟨?_, ?_, ?_, ?_⟩⟩
  · rintro later old between new before occasion stored moment rfl hnew hnone hold
    obtain ⟨_, _, hweighed⟩ := hstory.earlier
    exact hweighed.add_le_of_weigh hstart hlifespan hpositive hnew hnone hold
  · rintro later second between first before occasion stored moment rfl hfirst hnone hsecond
    obtain ⟨_, _, hstored⟩ := hstory.earlier
    exact hstored.add_le_of_stale hstart hturn hlifespan hpositive hfirst hnone hsecond
  · rintro later h before r rfl hview hrequest hr
    obtain ⟨_, _, hsetOut⟩ := hstory.earlier
    obtain ⟨_, places₁, r', place', hbefore, hrequest', -, -, hgoes, -⟩ := hsetOut.goes
    refine hbefore.looked_of_isAssured hkind hturn hlifespan hrequest hr ?_
    rw [hview] at hgoes
    rcases hgoes.of_view with hplace | hplace <;> rw [hplace] <;> rfl
  · rintro j result hdone ⟨h, hh, rfl, hmove⟩
    exact hstory.view_of_done hdone (hstory.isOpen_of_finish hh hmove)

/-! ### Requests that find a sniff old -/

/-- Before the first request nobody asks for nodes but because of age. -/
def aging (lifespan : Nat) : Settings :=
  { sniffOnStartup := false, disablePings := true, sniffLifespan := some lifespan }

/-- Two requests find that there was no sniff for long. The second waits for the turn until the
first is told nodes. -/
def burstChoices : List Choice :=
  stint 0 15 8 ++ stint 1 15 4 ++ [{ who := 0, answer := .ok (listing ["a"]) }] ++ stint 0 20 15 ++
    stint 1 21 13

/-- What the two requests come to. -/
def burstCrowd : Crowd (Except Failure Response) :=
  .reached (aging 15) [plainRequest, plainRequest] [nodeAt "a"] burstChoices

/-- The second request finds the sniff of the first young, and both are sent. -/
theorem old_sniff_is_made_once_by_two :
    burstCrowd.scene.shared.lastSniff = 20 ∧
    burstCrowd.programs.map (fun program ↦ program.message?.map (·.url.text)) =
      [some "http://a:9200/", some "http://a:9200/"] ∧
    (∃ places story, Chronicle (aging 15) [plainRequest, plainRequest] (.among [nodeAt "a"])
      burstCrowd places story) ∧
    ∀ places story, Chronicle (aging 15) [plainRequest, plainRequest] (.among [nodeAt "a"])
      burstCrowd places story → WellPaced 15 0 [plainRequest, plainRequest] burstCrowd story :=
  ⟨rfl, rfl, old_sniffs_are_well_paced rfl rfl (by decide) (Nat.le_refl 0) rfl
    (show (Crowd.ofSends _ _ _).play burstChoices = some burstCrowd from rfl)⟩

/-! ### A sniff that is made too soon -/

/-- What a request wrote down until its end. -/
def events? : Program (Except Failure Response) → Option (List Event)
  | .done result => some ((trailOf result).map (·.event))
  | .step .. => none

/-- The answer of a node that cannot help. -/
def busyReply : Reply := { status := 503, body := [] }

/-- The answer of a node that helps. -/
def goodReply : Reply := { status := 200, body := [] }

/-- What a request comes to that sets out right after the beginning. -/
def earlyCrowd : Crowd (Except Failure Response) :=
  .reached (aging 15) [plainRequest] [nodeAt "a"]
    (stint 0 0 17 ++ [{ who := 0, answer := .ok goodReply }] ++ stint 0 0 2)

/-- The first request asks for nodes after a fault, and reads the clock before it waits for the
turn. The second, which has the turn and found that there was no sniff for long, is told nodes later
and comes to its end. -/
def overtakingChoices : List Choice :=
  stint 0 0 17 ++ stint 1 15 8 ++ [{ who := 0, answer := .ok busyReply }] ++ stint 0 15 5 ++
    [{ who := 0, answer := .ok (listing ["a"]) }] ++ stint 0 16 3 ++
    [{ who := 1, answer := .ok (listing ["a"]) }] ++ stint 1 30 15 ++
    [{ who := 1, answer := .ok goodReply }] ++ stint 1 30 2

/-- The first request stores the time that it has read. The third only sets out then. -/
def repeatingChoices : List Choice :=
  stint 0 30 12 ++ stint 2 31 8 ++ [{ who := 2, answer := .ok (listing ["a"]) }] ++ stint 2 31 15 ++
    [{ who := 2, answer := .ok goodReply }] ++ stint 2 31 2

/-- What the three requests come to before the first one stores its time. -/
def overtakingCrowd : Crowd (Except Failure Response) :=
  .reached (aging 15) (List.replicate 3 plainRequest) [nodeAt "a"] overtakingChoices

/-- What they come to in the end. -/
def repeatingCrowd : Crowd (Except Failure Response) :=
  .reached (aging 15) (List.replicate 3 plainRequest) [nodeAt "a"]
    (overtakingChoices ++ repeatingChoices)

/-- A request that sets out right after the beginning asks nobody although there was no sniff. And
the third of three requests, which sets out after the time 30 of the second one's sniff is stored,
asks for nodes because of age no later than at 31. -/
theorem stale_again_too_soon :
    earlyCrowd.scene.shared.lastSniff = 0 ∧
    earlyCrowd.programs.map events? = [some [.healthyResponse]] ∧
    overtakingCrowd.scene.shared.lastSniff = 30 ∧
    overtakingCrowd.programs.map events? =
      [none, some [.sniffOnStaleCluster, .sniffSuccess, .allNodesDead, .resurrection,
        .healthyResponse], none] ∧
    overtakingCrowd.programs[2]? = some (send (aging 15) plainRequest) ∧
    overtakingCrowd.play repeatingChoices = some repeatingCrowd ∧
    repeatingCrowd.scene.moment = 31 ∧
    repeatingCrowd.programs.map events? =
      [some [.badResponse, .sniffOnFail, .sniffSuccess, .maxRetriesReached],
        some [.sniffOnStaleCluster, .sniffSuccess, .allNodesDead, .resurrection, .healthyResponse],
        some [.sniffOnStaleCluster, .sniffSuccess, .healthyResponse]] :=
  ⟨rfl, rfl, rfl, rfl, rfl, rfl, rfl, rfl⟩

end SearchClient.Send
