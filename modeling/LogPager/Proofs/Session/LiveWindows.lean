import LogPager.Proofs.Session.Anchors
import LogPager.Proofs.Session.Movements
import LogPager.Proofs.Window.Newest

/-!
# Windows hold the live end under any bound

A bound of zero empties a window that holds the live end, so that records are
read anew from there while pushes fill it.  Still every request asks for older
records, and a window that holds anything holds the live end: a request that was
made of an empty window reads from the live end, and one that was made of held
records finds the live end reached when its reply comes.
-/

namespace LogPager

namespace Window

/-- A window that holds anything holds the live end. -/
def Live (window : Window) : Prop :=
  window.records ≠ [] → window.reached.newer = true

theorem Sound.live_of_isEmpty {window : Window} (sound : window.Sound)
    (live : window.Live) (several : window.isEmpty = false) :
    window.reached.newer = true :=
  live (sound.isEmpty_eq_false_iff.mp several)

/-- Older records that were read from the live end, or came to a window that
holds it. -/
theorem TakesFetched.live {window after : Window} {page : Page}
    {fetched : Fetched} {movement : Movement} (sound : window.Sound)
    (takes : window.TakesFetched page fetched movement after)
    (live : window.Live) (older : fetched.edge = .older)
    (read : fetched.unanchored = true ∨ window.reached.newer = true) :
    after.Live := by
  intro some
  have reached := takes.reached .newer
  simp only [PerEdge.get] at reached
  rw [reached, Bool.or_eq_true]
  by_cases empty : window.records = []
  · refine read.symm.imp_right fun unanchored => ?_
    have received : after.records = page.records := by
      rw [takes.records, older, empty, sound.edge?_eq_none_iff.mpr empty,
        Edge.put_empty, Page.beyond]
    have positive : 0 < page.length :=
      List.length_pos_iff.mpr (received ▸ some)
    have wasEmpty := sound.isEmpty_iff.mpr empty
    simp [Fetched.reaches, older, unanchored, wasEmpty, positive]
  · exact .inl (live empty)

theorem Sound.live_enforceBound {window : Window} (sound : window.Sound)
    (live : window.Live) (bound : Option Nat) (grown : Edge)
    (inFlight : Edge → Bool) (movement : Movement) :
    (window.enforceBound bound grown inFlight movement).2.Live := by
  rcases sound.enforceBound bound grown inFlight movement with
    ⟨unchanged, _⟩ | ⟨_, _, _, more, _, step, loses⟩
  · rw [unchanged]
    exact live
  · intro _
    rw [step, loses.reached]
    apply live
    intro empty
    simp [empty] at more

end Window

namespace Session

/-- Every window holds the live end once it holds anything, and the request in
flight asks for older records, from the live end unless it is held. -/
structure Tails (session : Session) : Prop where
  tracked : session.Tracked
  sound : session.Sound
  live : ∀ log, session.opened = some log → log.window.Live
  older : ∀ request ∈ session.sent, request.edge = .older
  read : ∀ request ∈ session.sent, session.slots.holds request = true →
    ∀ log, session.opened = some log →
      request.anchor = none ∨ log.window.reached.newer = true

namespace Tails

theorem new (fetchLimit : Nat) (bound : Option Nat) :
    (Session.new fetchLimit bound).Tails := by
  refine ⟨Tracked.new fetchLimit bound, Sound.new fetchLimit bound, ?_, ?_, ?_⟩
  · intro log opened
    cases opened
  · intro request member
    cases member
  · intro request member
    cases member

theorem not_holds {session : Session} (tails : session.Tails)
    (idle : session.slots.isInFlight .older = false) {request : Request}
    (made : request ∈ session.sent) : ¬session.slots.holds request = true :=
  Slots.not_holds_of_idle (tails.older request made) idle

theorem freed {session : Session} (tails : session.Tails)
    (status : SlotStatus) : (session.freed .older status).Tails := by
  refine ⟨tails.tracked.freed _ _, tails.sound.of_opened rfl, tails.live,
    tails.older, ?_⟩
  intro request made holds
  exact (Slots.not_holds_of_idle (tails.older request made) rfl holds).elim

theorem target {session : Session} (tails : session.Tails) {log : OpenLog}
    (opened : session.opened = some log) {edge toward : Edge}
    {anchor : Option Nat}
    (found : session.target? log.window edge = some (toward, anchor, false)) :
    toward = .older ∧ (anchor = none ∨ log.window.reached.newer = true) := by
  have live := (tails.sound log opened).live_of_isEmpty (tails.live log opened)
  obtain ⟨older, _, ⟨_, unanchored⟩ | ⟨several, _⟩⟩ :=
    target?_of_live live found
  · exact ⟨older, .inl unanchored⟩
  · exact ⟨older, .inr (live several)⟩

end Tails

theorem Requested.tails {session after : Session} {edge : Edge} {made : Bool}
    (requested : session.Requested edge made after) (tails : session.Tails) :
    after.Tails := by
  have tracked := requested.tracked tails.tracked
  cases requested with
  | refused settled => exact tails
  | @made log toward anchor opened target free =>
      obtain ⟨rfl, read⟩ := tails.target opened target
      refine ⟨tracked, tails.sound.of_opened rfl, tails.live, ?_, ?_⟩
      · intro request member
        rcases List.mem_append.mp member with earlier | newest
        · exact tails.older request earlier
        · rw [List.mem_singleton.mp newest]
          rfl
      · intro request member holds other same
        cases opened.symm.trans same
        rcases List.mem_append.mp member with earlier | newest
        · -- The slot was free, so what holds it now is the new request.
          have idle := tails.not_holds free earlier
          have step : session.Requested edge true _ := .made opened target free
          exact (step.not_holds tails.tracked earlier idle holds).elim
        · rw [List.mem_singleton.mp newest]
          exact read

theorem Tails.mergeFetched {session : Session} (tails : session.Tails)
    {request : Request} {log : OpenLog} {message : Message} {page : Page}
    {movement : Movement} {window : Window} (made : request ∈ session.sent)
    (awaits : session.Awaits request log)
    (merged : log.window.mergeFetched page (fetchedBy request message) =
      .ok (movement, window)) : window.Sound ∧ window.Live := by
  have sound := tails.sound log awaits.opened
  have takes := sound.mergeFetched merged
  refine ⟨takes.sound, takes.live sound (tails.live log awaits.opened)
    (tails.older request made) ?_⟩
  refine (tails.read request made awaits.holds log awaits.opened).imp_left ?_
  intro unanchored
  exact Option.isNone_iff_eq_none.mpr unanchored

theorem Delivered.tails {session after : Session} {reply : Reply}
    {outcome : Except SessionError Movement}
    (delivered : session.Delivered reply outcome after) (tails : session.Tails)
    (made : reply.request ∈ session.sent) : after.Tails := by
  have tracked := delivered.tracked tails.tracked
  have sound := (delivered.moves tails.sound).sound tails.sound
  have edge := tails.older _ made
  cases delivered with
  | dropped unwanted late => exact tails
  | discarded awaits discards =>
      rw [edge]
      exact tails.freed _
  | refetched awaits open_ result tagged paged gap =>
      rw [edge]
      exact (requested _ _).tails (tails.freed _)
  | merged awaits open_ result tagged same paged merged =>
      obtain ⟨windowSound, live⟩ := tails.mergeFetched made awaits merged
      refine ⟨tracked, sound, ?_, tails.older, ?_⟩
      · intro log opened
        cases opened
        exact windowSound.live_enforceBound live _ _ _ _
      · intro request member holds
        have idle : (session.freed reply.request.edge .idle).slots.isInFlight
            .older = false := by
          rw [edge]
          rfl
        exact (Slots.not_holds_of_idle (tails.older request member) idle
          holds).elim

theorem Pushed.tails {session after : Session} {message : Message}
    {outcome : Except SessionError Movement}
    (pushed : session.Pushed message outcome after) (tails : session.Tails) :
    after.Tails := by
  have tracked := pushed.tracked tails.tracked
  have sound := (pushed.moves tails.sound).sound tails.sound
  cases pushed with
  | closed | foreign | ignored | unordered | unmerged => exact tails
  | @merged log page movement window opened same live paged merged =>
      have takes := (tails.sound _ opened).mergeLive live merged
      refine ⟨tracked, sound, ?_, tails.older, ?_⟩
      · intro log isOpen
        cases isOpen
        apply takes.sound.live_enforceBound
        intro _
        rw [takes.reached, live]
      · intro request member holds log isOpen
        cases isOpen
        have reached := takes.sound.reached_enforceBound session.bound .newer
          session.slots.isInFlight movement
        refine .inr ?_
        rw [takes.reached] at reached
        exact (congrArg PerEdge.newer reached).trans live

theorem Tails.reopened {session : Session} (tails : session.Tails)
    (file : FileRef) : (session.reopened file).Tails := by
  refine ⟨tails.tracked.reopened file, ?_, ?_, tails.older, ?_⟩
  · intro log opened
    cases opened
    exact Window.continuing_sound _
  · intro log opened
    cases opened
    exact (Window.continuing_tailing _).live
  · intro request member holds
    exact (Slots.not_holds_of_idle (tails.older request member) rfl holds).elim

theorem Tails.perform {session : Session} (tails : session.Tails)
    (operation : Operation) (admitted : session.Admits operation) :
    (session.perform operation).Tails := by
  cases operation with
  | openFile file =>
      exact (session.requested_openFile file).tails (tails.reopened file)
  | close =>
      refine ⟨tails.tracked.close, nofun, nofun, tails.older, ?_⟩
      intro request member holds log opened
      cases opened
  | requestMore edge => exact (session.requested edge).tails tails
  | deliver reply => exact (session.delivered reply).tails tails admitted
  | push message => exact (session.pushed message).tails tails
  | subscribe | unsubscribe | take =>
      exact ⟨tails.tracked.perform _, tails.sound.of_opened rfl, tails.live,
        tails.older, tails.read⟩

theorem Reachable.tails {fetchLimit : Nat} {bound : Option Nat}
    {session : Session} (reachable : Reachable fetchLimit bound session) :
    session.Tails :=
  reachable.invariant (Tails.new fetchLimit bound)
    fun _ operation tails admitted => tails.perform operation admitted

end Session
end LogPager
