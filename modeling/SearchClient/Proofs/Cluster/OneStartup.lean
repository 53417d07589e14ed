import SearchClient.Proofs.Cluster.Chronicle

/-!
# The first sniff happens once and first

When many requests set out together, the first that gets the turn begins the first sniff and keeps
the turn until the sniff is over. Those that come to the turn later find that it has begun, and
since they have the turn, it is over (`Chronicle.finished_of_leave`). So no request can contact a
node before that, unless it names its node or asks for no sniffs. If nobody tells nodes, only the
request that asked is stranded.
-/

set_option autoImplicit false
set_option relaxedAutoImplicit false

namespace SearchClient.Send

/-! ### What is said about the first sniff -/

/-- A request that neither names its node nor forgoes sniffs. -/
def Attentive (r : Request) : Prop :=
  r.overrides.onlyNode = none ∧ r.overrides.disableSniff = false

/-- The first sniff began. -/
def Happening.begins (h : Happening) : Bool :=
  match h.move with
  | .begin => true
  | _ => false

/-- A node got a ping or a request. -/
def Move.contacts : Move → Bool
  | .direct .. | .ping .. | .attempt .. => true
  | _ => false

/-- The first sniff is over. -/
def FirstFinished (story : List Happening) : Prop :=
  ∃ h ∈ story, ∃ told, h.move = .finish .startup told

/-- The result of a request tells of the first sniff. -/
def TellsOfFirst (result : Except Failure Response) : Prop :=
  ∃ entry ∈ trailOf result, entry.event = .sniffOnStartup

/-- What holds of the first sniff whenever requests run together. -/
structure FirstSniff (s : Settings) (requests : List Request) (c : Crowd (Except Failure Response))
    (story : List Happening) : Prop where
  /-- It begins at most once. -/
  once : story.countP Happening.begins ≤ 1
  /-- At most one request tells of it. -/
  recorded : ∀ (i j : Nat) (first second : Except Failure Response),
    c.programs[i]? = some (.done first) → c.programs[j]? = some (.done second) →
    TellsOfFirst first → TellsOfFirst second → i = j
  /-- A request that has sent a message asks for nodes in the first sniff, or that is over. -/
  first : ∀ j r message next, requests[j]? = some r → Attentive r →
    c.programs[j]? = some (.step (.call message) next) →
    FirstFinished story ∨ begunBy j story = true ∧ Asks s message
  /-- The request that was told no nodes is over, says so, and never contacted a node. -/
  stranded : ∀ h ∈ story, h.move = .finish .startup false →
    (∃ e : GivenUp, c.programs[h.who]? = some (.done (.error (.givenUp e))) ∧
      e.why = .couldNotSniffOnStartup ∧ e.attempts = 0) ∧
    ∀ other ∈ story, other.who = h.who → other.move.contacts = false
  /-- No other request says so. -/
  others : ∀ j result, c.programs[j]? = some (.done result) → Stranded result →
    ∃ h ∈ story, h.who = j ∧ h.move = .finish .startup false

/-! ### Places before and after -/

namespace Place

/-- The first sniff is behind the request. -/
def isPast : Place → Bool
  | fresh | bound | admitted | stranded => false
  | place => !place.isFirst

/-- The request has contacted no node yet. -/
def isEarly : Place → Bool
  | fresh | admitted | stranded => true
  | place => place.isFirst

theorem holdsTurn_of_isFirst {place : Place} (h : place.isFirst = true) :
    place.holdsTurn = true := by
  cases place with
  | asking | kept => rfl
  | learnt occasion => cases occasion <;> first | rfl | cases h
  | _ => cases h

end Place

variable {s : Settings} {requests : List Request} {start : Scene}
  {c : Crowd (Except Failure Response)} {places : Nat → Place} {story later : List Happening}
  {h : Happening} {r : Request} {j : Nat}

theorem FirstFinished.cons (hfinished : FirstFinished story) : FirstFinished (h :: story) := by
  obtain ⟨last, hlast, htold⟩ := hfinished
  exact ⟨last, List.mem_cons_of_mem _ hlast, htold⟩

theorem firstFinished_of_finish {told : Bool} (hmove : h.move = .finish .startup told) :
    FirstFinished (h :: story) :=
  ⟨h, List.mem_cons_self, told, hmove⟩

section Spelled

variable [Url.Domain.Spelling]

namespace Goes

variable {who : Nat} {place place' : Place} {sc sc' : Scene} {move : Move}

/-- Whoever begins the first sniff is the first to do so, and is in it then. -/
theorem of_begin (h : Goes s r who place sc .begin place' sc') :
    sc.shared.started = false ∧ place'.isFirst = true := by
  cases h with
  | begin hstarted => exact ⟨hstarted, rfl⟩

/-- The first sniff goes on until it is over. -/
theorem isFirst_or_finish (h : Goes s r who place sc move place' sc')
    (hfirst : place.isFirst = true) :
    place'.isFirst = true ∨ ∃ told, move = .finish .startup told := by
  cases h with
  | look | clock | ask | store => exact .inl hfirst
  | strand => exact .inr ⟨false, rfl⟩
  | finish => exact .inr ⟨true, by rw [eq_of_beq hfirst]⟩
  | reseed hplace =>
    cases hplace with
    | asking => exact .inl hfirst
    | walking => cases hfirst
  | view hplace => rcases hplace with rfl | rfl <;> cases hfirst
  | _ => cases hfirst

/-- A request comes to the first sniff when it begins it. -/
theorem isFirst_of (h : Goes s r who place sc move place' sc') (hfirst : place'.isFirst = true) :
    place.isFirst = true ∨ move = .begin := by
  cases h with
  | look | clock | ask | store => exact .inl hfirst
  | begin => exact .inr rfl
  | finish =>
    rename_i occasion
    cases occasion <;> cases hfirst
  | reseed hplace =>
    cases hplace with
    | asking => exact .inl hfirst
    | walking => cases hfirst
  | _ => cases hfirst

/-- How a request comes past the first sniff. -/
theorem isPast_of (h : Goes s r who place sc move place' sc') (hpast : place'.isPast = true) :
    place.isPast = true ∨ place = .admitted ∧ sc.shared.started = true ∨
      (∃ told, move = .finish .startup told) ∨ asksFirst s r sc.shared = false := by
  cases h with
  | look | clock | ask | store => exact .inl hpast
  | pass _ hasks => exact .inr (.inr (.inr hasks))
  | leaveFirst hstarted => exact .inr (.inl ⟨rfl, hstarted⟩)
  | direct | enterFirst | begin | strand => cases hpast
  | finish =>
    rename_i occasion
    cases occasion with
    | startup => exact .inr (.inr (.inl ⟨true, rfl⟩))
    | stale | fault => exact .inl rfl
  | reseed hplace =>
    cases hplace with
    | asking => exact .inl hpast
    | walking => exact .inl rfl
  | view hplace => rcases hplace with rfl | rfl <;> exact .inl rfl
  | _ => exact .inl rfl

/-- A request comes to an early place from an early one, and contacts no node on its way. -/
theorem isEarly_of (h : Goes s r who place sc move place' sc') (hearly : place'.isEarly = true) :
    place.isEarly = true ∧ move.contacts = false := by
  cases h with
  | look | clock | ask | store => exact ⟨hearly, rfl⟩
  | enterFirst | begin | strand => exact ⟨rfl, rfl⟩
  | finish =>
    rename_i occasion
    cases occasion <;> cases hearly
  | reseed hplace =>
    cases hplace with
    | asking => exact ⟨hearly, rfl⟩
    | walking => cases hearly
  | _ => cases hearly

/-- Only the first sniff in vain strands a request. -/
theorem eq_finish (h : Goes s r who place sc move .stranded sc') :
    move = .finish .startup false := by
  generalize hplace' : Place.stranded = place' at h
  cases h with
  | look hplace | clock hplace | ask _ hplace =>
    rw [← hplace'] at hplace
    cases hplace
  | strand => rfl
  | finish =>
    rename_i occasion
    cases occasion <;> cases hplace'
  | _ => cases hplace'

/-- The first sniff in vain strands its request. -/
theorem eq_stranded (h : Goes s r who place sc (.finish .startup false) place' sc') :
    place' = .stranded := by
  cases h
  rfl

end Goes

namespace Chronicle

/-! ### It happens once -/

/-- The first sniff has begun as often as the requests know of. -/
theorem countP_begins (hstory : Chronicle s requests start c places story)
    (hstart : start.shared.started = false) :
    story.countP Happening.begins = c.scene.shared.started.toNat := by
  induction hstory with
  | start => simp [Crowd.ofSends, hstart]
  | @happen _ _ _ _ _ _ move _ _ _ _ hgoes _ _ ih =>
    rw [List.countP_cons, ih, hgoes.started_eq]
    cases move with
    | begin => simp [Happening.begins, Move.begunAfter, hgoes.of_begin.1]
    | _ => rfl

/-- No two requests have begun the first sniff. -/
theorem eq_of_begunBy (hstory : Chronicle s requests start c places story)
    (hstart : start.shared.started = false) {i j : Nat} (hi : begunBy i story = true)
    (hj : begunBy j story = true) : i = j := by
  obtain ⟨first, hfirst, rfl, hbegins⟩ := begunBy_iff.mp hi
  obtain ⟨second, hsecond, rfl, hbegins'⟩ := begunBy_iff.mp hj
  have hcount : (story.filter Happening.begins).length ≤ 1 := by
    rw [← List.countP_eq_length_filter, hstory.countP_begins hstart]
    exact Bool.toNat_le _
  have hmem (h : Happening) (hh : h ∈ story) (hmove : h.move = .begin) :
      h ∈ story.filter Happening.begins := by
    rw [List.mem_filter, Happening.begins, hmove]
    exact ⟨hh, rfl⟩
  have hfirst := hmem first hfirst hbegins
  have hsecond := hmem second hsecond hbegins'
  generalize story.filter Happening.begins = begun at hcount hfirst hsecond
  rcases begun with _ | ⟨only, _ | ⟨_, _⟩⟩
  · cases hfirst
  · rw [List.mem_singleton.mp hfirst, List.mem_singleton.mp hsecond]
  · simp at hcount

/-! ### It happens first -/

/-- A first sniff that has begun is over, or some request is in it. -/
theorem finished_or_isFirst (hstory : Chronicle s requests start c places story)
    (hstart : start.shared.started = false) (hstarted : c.scene.shared.started = true) :
    FirstFinished story ∨ ∃ j, (places j).isFirst = true := by
  induction hstory with
  | start =>
    rw [Crowd.ofSends, hstart] at hstarted
    cases hstarted
  | @happen c c' places story choice r move place' _ _ _ hgoes _ _ ih =>
    by_cases hbefore : c.scene.shared.started = true
    · rcases ih hbefore with hfinished | ⟨j, hj⟩
      · exact .inl hfinished.cons
      · by_cases hwho : j = choice.who
        · subst hwho
          rcases hgoes.isFirst_or_finish hj with hfirst | ⟨told, hmove⟩
          · exact .inr ⟨choice.who, by rwa [Function.update_self]⟩
          · exact .inl (firstFinished_of_finish hmove)
        · exact .inr ⟨j, by rwa [Function.update_of_ne hwho]⟩
    · -- It began just now.
      rw [hgoes.started_eq] at hstarted
      cases move with
      | begin => exact .inr ⟨choice.who, by rw [Function.update_self]; exact hgoes.of_begin.2⟩
      | _ => exact absurd hstarted hbefore

/-- A request that has the turn and finds that the first sniff has begun finds it over, since
whoever is in it has the turn. -/
theorem finished_of_leave (hstory : Chronicle s requests start c places story)
    (hstart : start.shared.started = false) (hturn : start.turn = none)
    (hplace : places j = .admitted) (hstarted : c.scene.shared.started = true) :
    FirstFinished story := by
  rcases hstory.finished_or_isFirst hstart hstarted with hfinished | ⟨i, hi⟩
  · exact hfinished
  · have hholds : (places j).holdsTurn = true := by rw [hplace]; rfl
    obtain rfl := hstory.eq_of_holdsTurn hturn (Place.holdsTurn_of_isFirst hi) hholds
    rw [hplace] at hi
    cases hi

/-- An attentive request is past the first sniff only if that is over. -/
theorem finished_of_isPast (hstory : Chronicle s requests start c places story)
    (hkind : start.shared.pool.kind = .sniffing) (hasks : s.sniffOnStartup = true)
    (hstart : start.shared.started = false) (hturn : start.turn = none)
    (hrequest : requests[j]? = some r) (hr : Attentive r) (hpast : (places j).isPast = true) :
    FirstFinished story := by
  revert hpast
  refine hstory.follow (P := fun place _ story ↦ place.isPast = true → FirstFinished story) j
    nofun ?_ ?_
  · intro c places story r' move place' sc' earlier hrequest' hgoes ih hpast
    rw [hrequest, Option.some.injEq] at hrequest'
    subst hrequest'
    rcases hgoes.isPast_of hpast with hpast | ⟨hplace, hstarted⟩ | ⟨told, hmove⟩ | hspared
    · exact (ih hpast).cons
    · exact (earlier.finished_of_leave hstart hturn hplace hstarted).cons
    · exact firstFinished_of_finish hmove
    · rw [asksFirst, earlier.kind_eq, hkind, hasks, hr.2] at hspared
      cases hspared
  · intro _ _ _ _ _ _ _ _ _ _ _ ih hpast
    exact (ih hpast).cons

/-- An attentive request that waits for an answer is in the first sniff, or that is over. -/
theorem finished_or_asks (hstory : Chronicle s requests start c places story)
    (hkind : start.shared.pool.kind = .sniffing) (hasks : s.sniffOnStartup = true)
    (hstart : start.shared.started = false) (hturn : start.turn = none)
    (hrequest : requests[j]? = some r) (hr : Attentive r) {message : Message}
    {next : Except LinkFault Reply → Program (Except Failure Response)}
    (hprogram : c.programs[j]? = some (.step (.call message) next)) :
    FirstFinished story ∨ (places j).isFirst = true ∧ Asks s message := by
  have hpast := hstory.finished_of_isPast hkind hasks hstart hturn hrequest hr
  obtain ⟨move, place', sc', hgoes, hexchange⟩ :=
    (hstory.conducts hrequest hprogram c.scene fun _ ↦ rfl).exists_of_call (.error .timeout)
  by_cases hfirst : (places j).isFirst = true
  · refine .inr ⟨hfirst, ?_⟩
    generalize places j = place at hgoes hfirst
    cases hgoes with
    | ask _ _ hmessage =>
      simp only [Move.exchange?, Option.some.injEq, Prod.mk.injEq] at hexchange
      exact hexchange.1 ▸ hmessage
    | direct | ping | attempt => cases hfirst
    | _ => cases hexchange
  · refine .inl (hpast ?_)
    generalize places j = place at hgoes hfirst ⊢
    cases hgoes with
    | direct _ _ honly =>
      rw [hr.1] at honly
      cases honly
    | ask _ hplace => cases hplace <;> simpa [Place.isPast] using hfirst
    | ping | attempt => rfl
    | _ => cases hexchange

/-- A request that is in the first sniff has begun it. -/
theorem begunBy_of_isFirst (hstory : Chronicle s requests start c places story)
    (hfirst : (places j).isFirst = true) : begunBy j story = true := by
  revert hfirst
  refine hstory.follow (P := fun place _ story ↦ place.isFirst = true → begunBy j story = true) j
    nofun ?_ ?_
  · intro c places story r move place' sc' _ _ hgoes ih hfirst
    rw [begunBy, if_pos rfl]
    rcases hgoes.isFirst_of hfirst with hfirst | rfl
    · rw [ih hfirst]
      cases move <;> rfl
    · rfl
  · intro _ _ _ _ _ _ _ _ hj _ _ ih hfirst
    rw [begunBy_cons_of_ne hj]
    exact ih hfirst

/-! ### Who is stranded -/

/-- A request at an early place has contacted no node. -/
theorem contacts_of_isEarly (hstory : Chronicle s requests start c places story)
    (hearly : (places j).isEarly = true) :
    ∀ h ∈ story, h.who = j → h.move.contacts = false := by
  revert hearly
  refine hstory.follow (P := fun place _ story ↦ place.isEarly = true →
    ∀ h ∈ story, h.who = j → h.move.contacts = false) j (by simp) ?_ ?_
  · intro c places story r move place' sc' _ _ hgoes ih hearly
    obtain ⟨hbefore, hmove⟩ := hgoes.isEarly_of hearly
    exact List.forall_mem_cons.mpr ⟨fun _ ↦ hmove, ih hbefore⟩
  · intro _ _ _ _ _ _ _ _ hj _ _ ih hearly
    exact List.forall_mem_cons.mpr ⟨fun hwho ↦ absurd hwho hj, ih hearly⟩

/-- The request that was told no nodes in the first sniff is stranded for good. -/
theorem stranded_of_finish (hstory : Chronicle s requests start c places story) (hh : h ∈ story)
    (hmove : h.move = .finish .startup false) : places h.who = .stranded := by
  revert hh
  refine hstory.follow (P := fun place _ story ↦ h ∈ story → place = .stranded) h.who nofun ?_ ?_
  · intro c places story r move place' sc' _ _ hgoes ih hh
    rcases List.mem_cons.mp hh with hlatest | hh
    · rw [hlatest] at hmove
      subst hmove
      exact hgoes.eq_stranded
    · have hplace := hgoes.isLast_eq
      rw [ih hh] at hplace
      cases hplace
  · intro _ _ _ _ _ _ _ _ hj _ _ ih hh
    refine ih ((List.mem_cons.mp hh).resolve_left fun hlatest ↦ hj ?_)
    rw [hlatest]

/-- Nothing else strands a request. -/
theorem finish_of_stranded (hstory : Chronicle s requests start c places story)
    (hplace : places j = .stranded) :
    ∃ h ∈ story, h.who = j ∧ h.move = .finish .startup false := by
  revert hplace
  refine hstory.follow (P := fun place _ story ↦ place = .stranded →
    ∃ h ∈ story, h.who = j ∧ h.move = .finish .startup false) j nofun ?_ ?_
  · intro c places story r move place' sc' _ _ hgoes _ hplace
    rw [hplace] at hgoes
    exact ⟨_, List.mem_cons_self, rfl, hgoes.eq_finish⟩
  · intro _ _ _ _ _ _ _ _ _ _ _ ih hplace
    obtain ⟨h, hh, hwho, hmove⟩ := ih hplace
    exact ⟨h, List.mem_cons_of_mem _ hh, hwho, hmove⟩

/-- The end of a stranded request. -/
theorem exists_givenUp (hstory : Chronicle s requests start c places story) (hh : h ∈ story)
    (hmove : h.move = .finish .startup false) :
    ∃ e : GivenUp, c.programs[h.who]? = some (.done (.error (.givenUp e))) ∧
      e.why = .couldNotSniffOnStartup ∧ e.attempts = 0 := by
  have hplace := hstory.stranded_of_finish hh hmove
  obtain ⟨r, _, _, hrequest, -⟩ := hstory.goes_of_mem hh
  obtain ⟨result, hdone, hfinal⟩ := hstory.exists_done hrequest (by rw [hplace]; rfl)
  rcases hfinal with ⟨-, -, e, rfl, hwhy, hattempts⟩ | hconcluded
  · exact ⟨e, hdone, hwhy, hattempts⟩
  · have hends := hconcluded.ends
    rw [hplace] at hends
    cases hends

/-- A result that tells of the first sniff is that of the request that began it. -/
theorem begunBy_of_tells (hstory : Chronicle s requests start c places story)
    {result : Except Failure Response} (hdone : c.programs[j]? = some (.done result))
    (htells : TellsOfFirst result) : begunBy j story = true := by
  obtain ⟨entry, hentry, hevent⟩ := htells
  rcases hstory.final hdone with ⟨-, hbegun, -⟩ | hconcluded
  · exact hbegun
  · exact hconcluded.truthful entry hentry hevent

end Chronicle

/-- However many requests set out together, and whatever order they come in: the first sniff begins
at most once and only its request tells of it; an attentive request sends nothing but questions of
the first sniff until that is over; and if nobody tells nodes, the request that asked gives up
without an attempt, and it alone. -/
theorem first_sniff_is_once_and_first {choices : List Choice}
    (hkind : start.shared.pool.kind = .sniffing) (hasks : s.sniffOnStartup = true)
    (hstart : start.shared.started = false) (hturn : start.turn = none)
    (hplay : (Crowd.ofSends s requests start).play choices = some c) :
    (∃ places story, Chronicle s requests start c places story) ∧
      ∀ places story, Chronicle s requests start c places story →
        FirstSniff s requests c story := by
  refine ⟨exists_chronicle hplay, fun places story hstory ↦ ?_⟩
  refine ⟨?_, ?_, ?_, ?_, ?_⟩
  · rw [hstory.countP_begins hstart]
    exact Bool.toNat_le _
  · intro i j first second hfirst hsecond htells htells'
    exact hstory.eq_of_begunBy hstart (hstory.begunBy_of_tells hfirst htells)
      (hstory.begunBy_of_tells hsecond htells')
  · intro j r message next hrequest hr hprogram
    refine (hstory.finished_or_asks hkind hasks hstart hturn hrequest hr hprogram).imp_right ?_
    exact And.imp_left hstory.begunBy_of_isFirst
  · intro h hh hmove
    refine ⟨hstory.exists_givenUp hh hmove, hstory.contacts_of_isEarly ?_⟩
    rw [hstory.stranded_of_finish hh hmove]
    rfl
  · intro j result hdone hstranded
    rcases hstory.final hdone with ⟨hplace, -⟩ | hconcluded
    · exact hstory.finish_of_stranded hplace
    · exact absurd hstranded hconcluded.notStranded

end Spelled

/-! ### Two requests and a node that does not answer -/

/-- The first request asks the node for nodes, the second waits for the turn, the node does not
answer, and the second goes on until it has sent itself. -/
def strandingChoices : List Choice :=
  stint 0 0 8 ++ stint 1 0 3 ++ stint 0 0 2 ++ stint 1 0 12

/-- What the two requests come to. -/
def strandingCrowd : Crowd (Except Failure Response) :=
  .reached trusting [plainRequest, plainRequest] [nodeAt "a"] strandingChoices

/-- The first request is stranded, and the second waits for an answer to itself. -/
theorem first_sniff_strands_one_of_two :
    (∃ e : GivenUp, strandingCrowd.programs[0]? = some (.done (.error (.givenUp e))) ∧
      e.why = .couldNotSniffOnStartup) ∧
    (strandingCrowd.programs[1]?.bind Program.message?).map (·.url.text) = some "http://a:9200/" ∧
    (∃ places story, Chronicle trusting [plainRequest, plainRequest] (.among [nodeAt "a"])
      strandingCrowd places story) ∧
    ∀ places story, Chronicle trusting [plainRequest, plainRequest] (.among [nodeAt "a"])
      strandingCrowd places story →
      FirstSniff trusting [plainRequest, plainRequest] strandingCrowd story :=
  ⟨⟨_, rfl, rfl⟩, rfl, first_sniff_is_once_and_first rfl rfl rfl rfl
    (show (Crowd.ofSends _ _ _).play strandingChoices = some strandingCrowd from rfl)⟩

end SearchClient.Send
