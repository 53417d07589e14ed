import SearchClient.Proofs.Cluster.Conducting
import Mathlib.Logic.Function.Basic

/-!
# Chronicles of requests that run together

A run of requests together is told by a chronicle: the place of each request, and what happened so
far, the latest first. Every run has a chronicle (`exists_chronicle`), since requests keep to the
rules, and what a chronicle says is bound to the run by the rules: each happening names its move,
the scene before and the scene after.

What holds after every happening is shown by induction on chronicles. The turn is with one request
at a time (`Chronicle.holdsTurn_iff`), and each part of the scene is changed by moves of one sort
only.
-/

set_option autoImplicit false
set_option relaxedAutoImplicit false

namespace SearchClient

/-- Requests of a client that set out together, each whenever it likes. -/
def Crowd.ofSends [Url.Domain.Spelling] (s : Settings) (requests : List Request) (start : Scene) :
    Crowd (Except Failure Response) :=
  { scene := start, programs := requests.map (send s) }

/-- A scene in which nothing is known about the nodes. -/
def Scene.among (nodes : List Url) : Scene :=
  { shared := { pool :=
    { kind := .sniffing, register := nodes.map fun url ↦ { url := url }
      ring := List.range nodes.length } } }

/-- What requests come to among nodes that nothing is known about. -/
def Crowd.reached [Url.Domain.Spelling] (s : Settings) (requests : List Request) (nodes : List Url)
    (choices : List Choice) : Crowd (Except Failure Response) :=
  let crowd := Crowd.ofSends s requests (.among nodes)
  (crowd.play choices).getD crowd

/-- The message whose answer a program waits for. -/
def Program.message? {α : Type} : Program α → Option Message
  | step (.call message) _ => some message
  | _ => none

/-- The exchange that a step of a crowd is. -/
def Crowd.exchange? {α : Type} (c : Crowd α) (choice : Choice) : Option Exchange :=
  (c.programs[choice.who]?.bind Program.message?).map fun message ↦ (message, choice.answer)

namespace Send

/-- What a request did in one step. -/
structure Happening where
  who : Nat
  move : Move
  before : Scene
  after : Scene

/-- Whether a request has begun the first sniff. -/
def begunBy (who : Nat) : List Happening → Bool
  | [] => false
  | h :: story => if h.who = who then h.move.begunAfter (begunBy who story) else begunBy who story

/-- What happened in a run, the latest first, and the place to which each request has come. What is
left of a request after its step keeps to the rules from its place on. -/
inductive Chronicle [Url.Domain.Spelling] (s : Settings) (requests : List Request) (start : Scene) :
    Crowd (Except Failure Response) → (Nat → Place) → List Happening → Prop
  | start : Chronicle s requests start (.ofSends s requests start) (fun _ ↦ .fresh) []
  | happen {c c' : Crowd (Except Failure Response)} {places : Nat → Place}
      {story : List Happening} {choice : Choice} {r : Request} {move : Move} {place' : Place}
      (earlier : Chronicle s requests start c places story)
      (hrequest : requests[choice.who]? = some r) (htake : c.take choice = some c')
      (hgoes : Goes s r choice.who (places choice.who) c.scene move place' c'.scene)
      (hexchange : move.exchange? = c.exchange? choice)
      (hrest : ∀ rest, c'.programs[choice.who]? = some rest → rest.Conducts s r choice.who Final
        (begunBy choice.who (⟨choice.who, move, c.scene, c'.scene⟩ :: story)) place' c'.scene) :
      Chronicle s requests start c' (Function.update places choice.who place')
        (⟨choice.who, move, c.scene, c'.scene⟩ :: story)

variable {s : Settings} {requests : List Request} {start : Scene}
  {c c' : Crowd (Except Failure Response)} {places : Nat → Place} {story later : List Happening}
  {h : Happening} {choice : Choice} {r : Request} {j : Nat}

theorem begunBy_cons_of_ne (hne : h.who ≠ j) : begunBy j (h :: story) = begunBy j story :=
  if_neg hne

/-- A request has begun the first sniff if it made that move. -/
theorem begunBy_iff : begunBy j story = true ↔ ∃ h ∈ story, h.who = j ∧ h.move = .begin := by
  induction story with
  | nil => simp [begunBy]
  | cons h story ih =>
    rw [List.exists_mem_cons_iff]
    by_cases hwho : h.who = j
    · rw [begunBy, if_pos hwho]
      unfold Move.begunAfter
      split
      · rename_i hmove
        simp [hwho, hmove]
      · rename_i hmove
        have hother : h.move ≠ .begin := hmove
        simpa [hother] using ih
    · simpa [begunBy_cons_of_ne hwho, hwho] using ih

/-! ### Every run has a chronicle -/

namespace Chronicle

variable [Url.Domain.Spelling]

theorem length_programs (h : Chronicle s requests start c places story) :
    c.programs.length = requests.length := by
  induction h with
  | start => exact List.length_map _
  | happen _ _ htake _ _ _ ih =>
    obtain ⟨op, next, answer, -, -, -, hprograms, -⟩ := Crowd.take_eq_some htake
    rw [hprograms, List.length_set, ih]

/-- What is left of any request keeps to the rules from its place on, whatever the others do unless
it goes on at once. -/
theorem conducts (h : Chronicle s requests start c places story) (hrequest : requests[j]? = some r)
    {program : Program (Except Failure Response)} (hprogram : c.programs[j]? = some program)
    (sc : Scene) (hsc : c.busy = some j → sc = c.scene) :
    program.Conducts s r j Final (begunBy j story) (places j) sc := by
  induction h generalizing program sc with
  | start =>
    rw [Crowd.ofSends, List.getElem?_map, hrequest, Option.map_some, Option.some.injEq] at hprogram
    rw [← hprogram]
    exact send_conducts s r j sc
  | @happen c c' places story choice r' move place' _ hrequest' htake _ _ hrest ih =>
    obtain ⟨op, next, answer, -, hbusy, -, hprograms, hbusy'⟩ := Crowd.take_eq_some htake
    by_cases hj : j = choice.who
    · subst hj
      rw [hrequest, Option.some.injEq] at hrequest'
      subst hrequest'
      rw [Function.update_self]
      have hconducts := hrest program hprogram
      have hnext : next answer = program := by
        rw [hprograms, List.getElem?_set_self'] at hprogram
        obtain ⟨_, -, hnext⟩ := Option.map_eq_some_iff.mp hprogram
        exact hnext
      rw [hnext] at hbusy'
      by_cases hwaits : program.waits = true
      · exact hconducts.of_waits hwaits
      · rw [if_neg hwaits] at hbusy'
        rw [hsc hbusy']
        exact hconducts
    · rw [Function.update_of_ne hj, begunBy_cons_of_ne (Ne.symm hj)]
      rw [hprograms, List.getElem?_set_ne (Ne.symm hj)] at hprogram
      -- The others wait, since a request that takes a step is the only one that may be busy.
      refine ih hprogram sc fun hbusyj ↦ ?_
      rw [hbusyj] at hbusy
      rcases hbusy with hbusy | hbusy
      · cases hbusy
      · exact absurd (Option.some.inj hbusy) hj

/-- One more step is one more happening. -/
theorem exists_happen (h : Chronicle s requests start c places story)
    (htake : c.take choice = some c') :
    ∃ places' move, Chronicle s requests start c' places'
      (⟨choice.who, move, c.scene, c'.scene⟩ :: story) := by
  obtain ⟨op, next, answer, hprogram, -, hop, hprograms, -⟩ := Crowd.take_eq_some htake
  have hlt : choice.who < requests.length := by
    rw [← h.length_programs]
    exact (List.getElem?_eq_some_iff.mp hprogram).1
  have hrequest : requests[choice.who]? = some requests[choice.who] := List.getElem?_eq_getElem hlt
  obtain ⟨move, place', hgoes, hexchange, hrest⟩ :=
    h.conducts hrequest hprogram c.scene (fun _ ↦ rfl) c.scene (fun _ ↦ rfl) choice answer c'.scene
      rfl hop
  refine ⟨_, _, h.happen hrequest htake hgoes ?_ ?_⟩
  · rw [hexchange, Crowd.exchange?, hprogram]
    cases op with
    | call message =>
      have hanswer : choice.answer = answer := congrArg Prod.fst (Option.some.inj hop)
      rw [← hanswer]
      rfl
    | clock | look | keep | acquire | release | pause => rfl
  · intro rest hnext
    rw [hprograms, List.getElem?_set_self'] at hnext
    obtain ⟨_, -, rfl⟩ := Option.map_eq_some_iff.mp hnext
    rw [begunBy, if_pos rfl]
    exact hrest

theorem exists_play (h : Chronicle s requests start c places story) {choices : List Choice}
    (hplay : c.play choices = some c') :
    ∃ places' story', Chronicle s requests start c' places' story' := by
  induction choices generalizing c places story with
  | nil =>
    rw [Crowd.play, Option.some.injEq] at hplay
    exact ⟨places, story, hplay ▸ h⟩
  | cons choice choices ih =>
    rw [Crowd.play, Option.bind_eq_some_iff] at hplay
    obtain ⟨c₁, htake, hrest⟩ := hplay
    obtain ⟨places₁, move, hfirst⟩ := h.exists_happen htake
    exact ih hfirst hrest

end Chronicle

/-- Every run of requests together has a chronicle. -/
theorem exists_chronicle [Url.Domain.Spelling] {choices : List Choice}
    (hplay : (Crowd.ofSends s requests start).play choices = some c) :
    ∃ places story, Chronicle s requests start c places story :=
  Chronicle.start.exists_play hplay

/-! ### What happened before -/

namespace Chronicle

variable [Url.Domain.Spelling]

/-- The latest happening follows the rules, from a place that the request had come to before. -/
theorem goes (hstory : Chronicle s requests start c places (h :: story)) :
    ∃ c₁ places₁ r place', Chronicle s requests start c₁ places₁ story ∧
      requests[h.who]? = some r ∧ c₁.scene = h.before ∧ c.scene = h.after ∧
      Goes s r h.who (places₁ h.who) h.before h.move place' h.after ∧
      places = Function.update places₁ h.who place' := by
  cases hstory with
  | happen earlier hrequest htake hgoes =>
    exact ⟨_, _, _, _, earlier, hrequest, rfl, rfl, hgoes, rfl⟩

/-- What happened before some happenings is a chronicle of its own. -/
theorem earlier (hstory : Chronicle s requests start c places (later ++ story)) :
    ∃ c₁ places₁, Chronicle s requests start c₁ places₁ story := by
  induction later generalizing c places with
  | nil => exact ⟨c, places, hstory⟩
  | cons h later ih =>
    obtain ⟨c₁, places₁, -, -, hearlier, -⟩ := hstory.goes
    exact ih hearlier

/-- Any happening follows the rules. -/
theorem goes_of_mem (hstory : Chronicle s requests start c places story) (hh : h ∈ story) :
    ∃ r place place', requests[h.who]? = some r ∧
      Goes s r h.who place h.before h.move place' h.after := by
  obtain ⟨later, before, rfl⟩ := List.append_of_mem hh
  obtain ⟨c₁, places₁, hhappened⟩ := hstory.earlier
  obtain ⟨_, _, r, place', -, hrequest, -, -, hgoes, -⟩ := hhappened.goes
  exact ⟨r, _, place', hrequest, hgoes⟩

/-- A request that has come to its last place is over. -/
theorem exists_done (hstory : Chronicle s requests start c places story)
    (hrequest : requests[j]? = some r) (hplace : (places j).isLast = true) :
    ∃ result, c.programs[j]? = some (.done result) ∧ Final result (begunBy j story) (places j) := by
  have hlt : j < c.programs.length := by
    rw [hstory.length_programs]
    exact (List.getElem?_eq_some_iff.mp hrequest).1
  have hprogram : c.programs[j]? = some c.programs[j] := List.getElem?_eq_getElem hlt
  have hconducts := hstory.conducts hrequest hprogram c.scene fun _ ↦ rfl
  obtain ⟨result, hresult⟩ := hconducts.exists_done hplace
  rw [hresult] at hprogram hconducts
  exact ⟨result, hprogram, hconducts⟩

/-- A request that is over ended as it should. -/
theorem final (hstory : Chronicle s requests start c places story)
    {result : Except Failure Response} (hdone : c.programs[j]? = some (.done result)) :
    Final result (begunBy j story) (places j) := by
  have hlt : j < requests.length := by
    rw [← hstory.length_programs]
    exact (List.getElem?_eq_some_iff.mp hdone).1
  exact hstory.conducts (List.getElem?_eq_getElem hlt) hdone c.scene fun _ ↦ rfl

end Chronicle

/-- To show something of one request, at its place and after what happened, it is enough that its
own moves keep it and that the moves of the others do, which leave it where it is. -/
theorem Chronicle.follow [Url.Domain.Spelling] {P : Place → Scene → List Happening → Prop}
    (hstory : Chronicle s requests start c places story) (j : Nat) (hstart : P .fresh start [])
    (hown : ∀ c places story r move place' sc', Chronicle s requests start c places story →
      requests[j]? = some r → Goes s r j (places j) c.scene move place' sc' →
      P (places j) c.scene story → P place' sc' (⟨j, move, c.scene, sc'⟩ :: story))
    (hother : ∀ c places story r who move place' sc', who ≠ j →
      Chronicle s requests start c places story →
      Goes s r who (places who) c.scene move place' sc' →
      P (places j) c.scene story → P (places j) sc' (⟨who, move, c.scene, sc'⟩ :: story)) :
    P (places j) c.scene story := by
  induction hstory with
  | start => exact hstart
  | @happen c c' places story choice r move place' earlier hrequest _ hgoes _ _ ih =>
    by_cases hj : choice.who = j
    · subst hj
      rw [Function.update_self]
      exact hown c places story r move place' c'.scene earlier hrequest hgoes ih
    · rw [Function.update_of_ne (Ne.symm hj)]
      exact hother c places story r choice.who move place' c'.scene hj earlier hgoes ih

/-! ### Whose turn it is -/

theorem Place.holdsTurn_learnt {occasion : Occasion} (h : occasion ≠ .fault) :
    (learnt occasion).holdsTurn = true := by
  cases occasion with
  | startup | stale => rfl
  | fault => exact absurd rfl h

/-- What a move does about the turn: nothing, or it takes or gives away the turn. -/
inductive TurnKept (who : Nat) (place place' : Place) (sc sc' : Scene) : Prop
  | same (hplace : place'.holdsTurn = place.holdsTurn) (hturn : sc'.turn = sc.turn)
  | taken (hplace : place'.holdsTurn = true) (hbefore : sc.turn = none)
      (hturn : sc'.turn = some who)
  | given (hbefore : place.holdsTurn = true) (hplace : place'.holdsTurn = false)
      (hturn : sc'.turn = none)

namespace Goes

variable [Url.Domain.Spelling] {who : Nat} {place place' : Place} {sc sc' : Scene} {move : Move}

theorem turnKept (h : Goes s r who place sc move place' sc') :
    TurnKept who place place' sc sc' := by
  cases h with
  | enterFirst _ hturn | enterOld hturn | enterFault hturn => exact .taken rfl hturn rfl
  | leaveFirst | strand | leaveYoung | carryOn => exact .given rfl rfl rfl
  | finish =>
    rename_i occasion
    exact .given rfl (by cases occasion <;> rfl) rfl
  | store hoccasion => exact .same (Place.holdsTurn_learnt hoccasion).symm rfl
  | reseed hplace =>
    refine .same ?_ rfl
    cases hplace with
    | asking hoccasion => exact Place.holdsTurn_learnt hoccasion
    | walking => rfl
  | view hplace => rcases hplace with rfl | rfl <;> exact .same rfl rfl
  | _ => exact .same rfl rfl

/-! ### What moves change -/

/-- The first sniff has begun as soon as some request began it. -/
theorem started_eq (h : Goes s r who place sc move place' sc') :
    sc'.shared.started = move.begunAfter sc.shared.started := by
  cases h <;> rfl

/-- Only a move that stores a time changes the time of the last sniff. -/
theorem lastSniff_eq (h : Goes s r who place sc move place' sc') :
    sc'.shared.lastSniff = move.stored?.getD sc.shared.lastSniff := by
  cases h <;> rfl

/-- Time does not go back. -/
theorem moment_le (h : Goes s r who place sc move place' sc') : sc.moment ≤ sc'.moment := by
  cases h with
  | clock _ _ hmoment | young _ hmoment | old _ hmoment | read hmoment => exact hmoment
  | _ => exact Nat.le_refl _

/-- The kind of the pool never changes. -/
theorem kind_eq (h : Goes s r who place sc move place' sc') :
    sc'.shared.pool.kind = sc.shared.pool.kind := by
  cases h with
  | reseed => exact Pool.kind_reseed ..
  | view => exact Pool.kind_walk _
  | spent hpool => rcases hpool with rfl | ⟨number, rfl⟩ <;> rfl
  | stride _ _ hpool => rcases hpool with rfl | rfl <;> rfl
  | _ => rfl

end Goes

namespace Chronicle

variable [Url.Domain.Spelling]

/-- The turn is with the one request whose place has it. -/
theorem holdsTurn_iff (hstory : Chronicle s requests start c places story)
    (hturn : start.turn = none) (j : Nat) :
    (places j).holdsTurn = true ↔ c.scene.turn = some j := by
  induction hstory generalizing j with
  | start => simp [Place.holdsTurn, Crowd.ofSends, hturn]
  | @happen c c' places _ choice _ _ place' _ _ _ hgoes _ _ ih =>
    have hwho := ih choice.who
    by_cases hj : j = choice.who
    · subst hj
      rw [Function.update_self]
      cases hgoes.turnKept with
      | same hplace hturn => rw [hplace, hturn, hwho]
      | taken hplace _ hturn => simp [hplace, hturn]
      | given _ hplace hturn => simp [hplace, hturn]
    · rw [Function.update_of_ne hj, ih j]
      cases hgoes.turnKept with
      | same _ hturn => rw [hturn]
      | taken _ hbefore hturn => simp [hbefore, hturn, Ne.symm hj]
      | given hbefore _ hturn => simp [hwho.mp hbefore, hturn, Ne.symm hj]

/-- No two requests have the turn. -/
theorem eq_of_holdsTurn (hstory : Chronicle s requests start c places story)
    (hturn : start.turn = none) {i j : Nat} (hi : (places i).holdsTurn = true)
    (hj : (places j).holdsTurn = true) : i = j :=
  Option.some.inj (((hstory.holdsTurn_iff hturn i).mp hi).symm.trans
    ((hstory.holdsTurn_iff hturn j).mp hj))

theorem kind_eq (hstory : Chronicle s requests start c places story) :
    c.scene.shared.pool.kind = start.shared.pool.kind := by
  induction hstory with
  | start => rfl
  | happen _ _ _ hgoes _ _ ih => rw [hgoes.kind_eq, ih]

end Chronicle

end Send

end SearchClient
