import LogPager.Proofs.Session.Shifts
import Mathlib.Data.List.Chain
import Mathlib.Data.List.Induction

/-!
# What subscribers hear

The view published last is the present one.  A subscriber that keeps its
receiving end is sent every other view once, at the operation that made it, and
never the same view twice in a row.
-/

namespace LogPager

namespace Broadcast

/-- A subscriber still receives, and these views wait for it. -/
def Feeds (broadcast : Broadcast) (subscriber : Nat) (views : List View) :
    Prop :=
  broadcast.channels[subscriber]? = some { inbox := views }

/-- The views sent to a subscriber that it has not taken. -/
def waiting (broadcast : Broadcast) (subscriber : Nat) : List View :=
  broadcast.channels[subscriber]?.elim [] (·.inbox)

theorem feeds_subscribe (broadcast : Broadcast) :
    broadcast.subscribe.2.Feeds broadcast.subscribe.1
      broadcast.lastPublished.toList := by
  simp [Feeds, subscribe]

theorem lastPublished_publish (broadcast : Broadcast) (view : View) :
    (broadcast.publish view).lastPublished = some view := by
  unfold publish
  split
  · assumption
  · rfl

theorem lastPublished_take (broadcast : Broadcast) (subscriber : Nat) :
    (broadcast.take subscriber).2.lastPublished = broadcast.lastPublished := by
  unfold take
  split
  · rfl
  · split <;> rfl

namespace Feeds

variable {broadcast : Broadcast} {subscriber : Nat} {views : List View}

theorem waiting_eq (feeds : broadcast.Feeds subscriber views) :
    broadcast.waiting subscriber = views := by
  rw [waiting, feeds, Option.elim_some]

theorem publish (feeds : broadcast.Feeds subscriber views) (view : View) :
    (broadcast.publish view).Feeds subscriber
      (views ++ if broadcast.lastPublished = some view then [] else [view]) := by
  have found : broadcast.channels[subscriber]? = some { inbox := views } := feeds
  unfold Broadcast.publish
  split
  · rw [List.append_nil]
    exact feeds
  · simp [Feeds, found, Channel.send]

theorem subscribe (feeds : broadcast.Feeds subscriber views) :
    broadcast.subscribe.2.Feeds subscriber views := by
  have before := (List.getElem?_eq_some_iff.mp feeds).1
  rw [Feeds, Broadcast.subscribe, List.getElem?_append_left before]
  exact feeds

theorem unsubscribe (feeds : broadcast.Feeds subscriber views) {other : Nat}
    (different : other ≠ subscriber) :
    (broadcast.unsubscribe other).Feeds subscriber views := by
  have found : broadcast.channels[subscriber]? = some { inbox := views } := feeds
  simp [Feeds, Broadcast.unsubscribe, different, found]

theorem take (feeds : broadcast.Feeds subscriber views) :
    (broadcast.take subscriber).1 = some views ∧
      (broadcast.take subscriber).2.Feeds subscriber [] := by
  have found : broadcast.channels[subscriber]? = some { inbox := views } := feeds
  have before := (List.getElem?_eq_some_iff.mp found).1
  have taken : broadcast.take subscriber = (some views,
      { broadcast with channels := broadcast.channels.set subscriber {} }) := by
    rw [Broadcast.take, found]
    rfl
  rw [taken]
  exact ⟨rfl, by simp [Feeds, before]⟩

theorem take_other (feeds : broadcast.Feeds subscriber views) {other : Nat}
    (different : other ≠ subscriber) :
    (broadcast.take other).2.Feeds subscriber views := by
  unfold Broadcast.take
  split
  · exact feeds
  · split
    · rw [Feeds, List.getElem?_set_ne different]
      exact feeds
    · exact feeds

end Feeds
end Broadcast

namespace Session

/-- The view published last is the present one, and no file was opened where
none was published. -/
structure Published (session : Session) : Prop where
  current : ∀ view, session.broadcast.lastPublished = some view →
    view = session.view
  silent : session.broadcast.lastPublished = none → session.opened = none

/-- A viewer sees nothing of an operation, or the new view is published. -/
def Shows (session after : Session) : Prop :=
  session.Undisturbed after ∨
    after.broadcast = session.broadcast.publish after.view

theorem Shows.lastPublished {session after : Session}
    (shown : session.Shows after) :
    after.broadcast.lastPublished = some after.view ∨
      after.broadcast.lastPublished = session.broadcast.lastPublished ∧
        after.opened = session.opened ∧ after.view = session.view := by
  rcases shown with unseen | sent
  · exact .inr ⟨congrArg _ unseen.broadcast, unseen.opened, unseen.view⟩
  · left
    rw [sent, Broadcast.lastPublished_publish]

theorem shows_openFile (session : Session) (file : FileRef) :
    session.Shows (session.openFile file).2 := by
  have unseen := (session.requested_openFile file).undisturbed
  have published : (session.reopened file).broadcast =
      session.broadcast.publish (session.reopened file).view := rfl
  exact .inr (by rw [unseen.broadcast, unseen.view, published])

theorem Delivered.shows {session after : Session} {reply : Reply}
    {outcome : Except SessionError Movement}
    (delivered : session.Delivered reply outcome after) :
    session.Shows after := by
  cases delivered with
  | dropped | discarded => exact .inl (.of_opened rfl rfl rfl)
  | refetched awaits open_ result tagged paged gap =>
      have again := requested (session.freed reply.request.edge .idle)
        reply.request.edge
      have unseen := again.undisturbed
      exact .inl ⟨unseen.opened, unseen.records, unseen.view, unseen.file,
        unseen.broadcast⟩
  | merged => exact .inr rfl

theorem Pushed.shows {session after : Session} {message : Message}
    {outcome : Except SessionError Movement}
    (pushed : session.Pushed message outcome after) : session.Shows after := by
  cases pushed with
  | closed | foreign | ignored | unordered | unmerged =>
      exact .inl (.of_opened rfl rfl rfl)
  | merged => exact .inr rfl

/-- The view published last is the new one, or it is the one before and an
operation left the view as it was. -/
theorem lastPublished_perform (session : Session) (operation : Operation) :
    (session.perform operation).broadcast.lastPublished =
        some (session.perform operation).view ∨
      (session.perform operation).broadcast.lastPublished =
          session.broadcast.lastPublished ∧
        (session.perform operation).opened = session.opened ∧
        (session.perform operation).view = session.view := by
  cases operation with
  | openFile file => exact (session.shows_openFile file).lastPublished
  | close => exact Shows.lastPublished (.inr rfl)
  | requestMore edge =>
      exact Shows.lastPublished (.inl (session.requested edge).undisturbed)
  | deliver reply => exact (session.delivered reply).shows.lastPublished
  | push message => exact (session.pushed message).shows.lastPublished
  | subscribe | unsubscribe => exact .inr ⟨rfl, rfl, rfl⟩
  | take subscriber =>
      exact .inr ⟨session.broadcast.lastPublished_take subscriber, rfl, rfl⟩

theorem Published.perform {session : Session} (published : session.Published)
    (operation : Operation) : (session.perform operation).Published := by
  rcases session.lastPublished_perform operation with
    last | ⟨last, opened, view⟩
  · constructor
    · intro view same
      exact Option.some.inj (same.symm.trans last)
    · intro none
      rw [last] at none
      cases none
  · constructor
    · rw [last, view]
      exact published.current
    · rw [last, opened]
      exact published.silent

theorem Published.new (fetchLimit : Nat) (bound : Option Nat) :
    (Session.new fetchLimit bound).Published := by
  constructor
  · intro view published
    cases published
  · intro _
    rfl

theorem Published.run {session : Session} (published : session.Published)
    (operations : List Operation) : (session.run operations).Published :=
  kept_run (fun _ operation earlier => earlier.perform operation) published
    operations

theorem Arises.published {fetchLimit : Nat} {bound : Option Nat}
    {session : Session} (arises : Arises fetchLimit bound session) :
    session.Published :=
  arises.invariant (Published.new fetchLimit bound)
    fun _ operation published => published.perform operation

/-- The views that a subscriber takes by an operation. -/
def handed (session : Session) (subscriber : Nat) : Operation → List View
  | .take other =>
      if other = subscriber then (session.take subscriber).1.getD [] else []
  | _ => []

/-- The views that an operation publishes for the first time. -/
def announced (session : Session) (operation : Operation) : List View :=
  if (session.perform operation).broadcast.lastPublished =
      session.broadcast.lastPublished then []
  else [(session.perform operation).view]

theorem announced_eq (session : Session) (operation : Operation) :
    session.announced operation = [] ∧
        (session.perform operation).broadcast.lastPublished =
          session.broadcast.lastPublished ∨
      session.announced operation = [(session.perform operation).view] ∧
        (session.perform operation).broadcast.lastPublished =
          some (session.perform operation).view ∧
        session.broadcast.lastPublished ≠
          some (session.perform operation).view := by
  by_cases same : (session.perform operation).broadcast.lastPublished =
      session.broadcast.lastPublished
  · exact .inl ⟨if_pos same, same⟩
  · rcases session.lastPublished_perform operation with last | ⟨last, _⟩
    · exact .inr ⟨if_neg same, last, fun before => same (last.trans before.symm)⟩
    · exact (same last).elim

/-- An operation that changes the view announces the new one.  Any other
announces at most the first view ever published. -/
theorem Published.announced_iff {session : Session}
    (published : session.Published) (operation : Operation) :
    ((session.perform operation).view ≠ session.view →
      session.announced operation = [(session.perform operation).view]) ∧
    ((session.perform operation).view = session.view →
      session.announced operation = [] ∨
        session.broadcast.lastPublished = none ∧
          session.announced operation = [session.view]) := by
  have last := session.lastPublished_perform operation
  rcases session.announced_eq operation with ⟨silent, same⟩ | ⟨told, _, fresh⟩
  · refine ⟨?_, fun _ => .inl silent⟩
    intro changed
    rcases last with last | ⟨_, _, view⟩
    · exact (changed (published.current _ (same.symm.trans last))).elim
    · exact (changed view).elim
  · refine ⟨fun _ => told, ?_⟩
    intro same
    rw [same] at told fresh
    refine .inr ⟨?_, told⟩
    cases before : session.broadcast.lastPublished with
    | none => rfl
    | some view =>
        rw [before, published.current view before] at fresh
        exact (fresh rfl).elim

theorem feeds_of_shows {session : Session} {operation : Operation}
    {subscriber : Nat} {views : List View}
    (feeds : session.broadcast.Feeds subscriber views)
    (shown : session.Shows (session.perform operation)) :
    (session.perform operation).broadcast.Feeds subscriber
      (views ++ session.announced operation) := by
  unfold announced
  rcases shown with unseen | sent
  · rw [unseen.broadcast, if_pos rfl, List.append_nil]
    exact feeds
  · have fed := feeds.publish (session.perform operation).view
    rw [← sent] at fed
    have last : (session.perform operation).broadcast.lastPublished =
        some (session.perform operation).view := by
      rw [sent, Broadcast.lastPublished_publish]
    rw [last]
    simpa only [eq_comm] using fed

/-- What a subscriber takes and what waits for it afterwards is what waited
before and what was announced. -/
theorem feeds_perform {session : Session} {operation : Operation}
    {subscriber : Nat} {views : List View}
    (feeds : session.broadcast.Feeds subscriber views)
    (keeps : operation ≠ .unsubscribe subscriber) :
    ∃ later, (session.perform operation).broadcast.Feeds subscriber later ∧
      session.handed subscriber operation ++ later =
        views ++ session.announced operation := by
  cases operation with
  | openFile file =>
      exact ⟨_, feeds_of_shows feeds (session.shows_openFile file), rfl⟩
  | close => exact ⟨_, feeds_of_shows feeds (.inr rfl), rfl⟩
  | requestMore edge =>
      exact ⟨_, feeds_of_shows feeds
        (.inl (session.requested edge).undisturbed), rfl⟩
  | deliver reply =>
      exact ⟨_, feeds_of_shows feeds (session.delivered reply).shows, rfl⟩
  | push message =>
      exact ⟨_, feeds_of_shows feeds (session.pushed message).shows, rfl⟩
  | subscribe =>
      have silent : session.announced .subscribe = [] := if_pos rfl
      rw [silent, List.append_nil]
      exact ⟨views, feeds.subscribe, rfl⟩
  | unsubscribe other =>
      have silent : session.announced (.unsubscribe other) = [] := if_pos rfl
      have different : other ≠ subscriber := fun same => keeps (same ▸ rfl)
      rw [silent, List.append_nil]
      exact ⟨views, feeds.unsubscribe different, rfl⟩
  | take other =>
      have silent : session.announced (.take other) = [] :=
        if_pos (session.broadcast.lastPublished_take other)
      rw [silent, List.append_nil]
      by_cases same : other = subscriber
      · subst same
        obtain ⟨taken, rest⟩ := feeds.take
        refine ⟨[], rest, ?_⟩
        simp [handed, Session.take, taken]
      · refine ⟨views, feeds.take_other same, ?_⟩
        simp [handed, same]

/-- The views that a subscriber took in the course of some operations. -/
def taken (session : Session) (subscriber : Nat) : List Operation → List View
  | [] => []
  | operation :: rest =>
      session.handed subscriber operation ++
        (session.perform operation).taken subscriber rest

/-- All views that reached a subscriber in the course of some operations. -/
def heard (session : Session) (subscriber : Nat)
    (operations : List Operation) : List View :=
  session.taken subscriber operations ++
    (session.run operations).broadcast.waiting subscriber

theorem taken_concat (session : Session) (subscriber : Nat)
    (operations : List Operation) (operation : Operation) :
    session.taken subscriber (operations ++ [operation]) =
      session.taken subscriber operations ++
        (session.run operations).handed subscriber operation := by
  induction operations generalizing session with
  | nil => simp [taken, run]
  | cons first rest ih => simp [taken, run, ih]

theorem feeds_run {session : Session} {subscriber : Nat} {views : List View}
    (feeds : session.broadcast.Feeds subscriber views)
    {operations : List Operation}
    (keeps : .unsubscribe subscriber ∉ operations) :
    ∃ later, (session.run operations).broadcast.Feeds subscriber later := by
  induction operations generalizing session views with
  | nil => exact ⟨views, feeds⟩
  | cons operation rest ih =>
      obtain ⟨first, onward⟩ := not_or.mp (List.mem_cons.not.mp keeps)
      obtain ⟨later, fed, _⟩ := feeds_perform feeds (Ne.symm first)
      exact ih fed onward

theorem heard_concat {session : Session} {subscriber : Nat}
    {views : List View} (feeds : session.broadcast.Feeds subscriber views)
    {operations : List Operation} {operation : Operation}
    (keeps : .unsubscribe subscriber ∉ operations ++ [operation]) :
    session.heard subscriber (operations ++ [operation]) =
      session.heard subscriber operations ++
        (session.run operations).announced operation := by
  rw [List.mem_append, not_or, List.mem_singleton] at keeps
  obtain ⟨waiting, fed⟩ := feeds_run feeds keeps.1
  obtain ⟨later, fedLater, same⟩ := feeds_perform fed (Ne.symm keeps.2)
  have next : session.run (operations ++ [operation]) =
      (session.run operations).perform operation := by
    rw [run_append]
    rfl
  rw [heard, heard, taken_concat, next, fedLater.waiting_eq, fed.waiting_eq,
    List.append_assoc, same, List.append_assoc]

/-- A subscriber hears no view twice in a row, and last the one published
last. -/
theorem heard_follows (session : Session) {operations : List Operation}
    (keeps : .unsubscribe session.subscribe.1 ∉ operations) :
    (session.subscribe.2.heard session.subscribe.1 operations).IsChain
        (· ≠ ·) ∧
      (session.subscribe.2.heard session.subscribe.1 operations).getLast? =
        (session.subscribe.2.run operations).broadcast.lastPublished := by
  have feeds : session.subscribe.2.broadcast.Feeds session.subscribe.1 _ :=
    session.broadcast.feeds_subscribe
  induction operations using List.reverseRecOn with
  | nil =>
      have greeting : session.subscribe.2.heard session.subscribe.1 [] =
          session.broadcast.lastPublished.toList := feeds.waiting_eq
      have last : (session.subscribe.2.run []).broadcast.lastPublished =
        session.broadcast.lastPublished := rfl
      rw [greeting, last]
      cases session.broadcast.lastPublished <;> simp
  | append_singleton operations operation ih =>
      have earlier : .unsubscribe session.subscribe.1 ∉ operations :=
        fun member => keeps (List.mem_append_left _ member)
      obtain ⟨chain, last⟩ := ih earlier
      rw [heard_concat feeds keeps, run_append]
      show _ ∧ _ = ((session.subscribe.2.run operations).perform
        operation).broadcast.lastPublished
      rcases (session.subscribe.2.run operations).announced_eq operation with
        ⟨silent, same⟩ | ⟨told, now, fresh⟩
      · rw [silent, List.append_nil, same]
        exact ⟨chain, last⟩
      · rw [told, now]
        refine ⟨?_, by simp⟩
        apply chain.append (List.isChain_singleton _)
        intro view ends other begins same
        rw [last] at ends
        simp only [List.head?_cons, Option.mem_some_iff] at begins
        apply fresh
        rw [begins, ← same]
        exact ends

/-- A subscriber that keeps its receiving end hears no view twice in a row.
Each operation that changes the view lets it hear the new view and nothing else,
whether it comes alone or among replies taken in turn; any other lets it hear
nothing, except for the first view ever published.  What it heard last is the
present view. -/
theorem Arises.subscriber_hears_changes {fetchLimit : Nat}
    {bound : Option Nat} {session : Session}
    (arises : Arises fetchLimit bound session) {operations : List Operation}
    (keeps : .unsubscribe session.subscribe.1 ∉ operations) :
    let heard := session.subscribe.2.heard session.subscribe.1
    (heard operations).IsChain (· ≠ ·) ∧
    (∀ before operation after, operations = before ++ operation :: after →
      let earlier := session.subscribe.2.run before
      ((earlier.perform operation).view ≠ earlier.view →
        heard (before ++ [operation]) =
          heard before ++ [(earlier.perform operation).view]) ∧
      ((earlier.perform operation).view = earlier.view →
        heard (before ++ [operation]) = heard before ∨
          heard before = [] ∧
            heard (before ++ [operation]) = [earlier.view])) ∧
    (∀ view, (heard operations).getLast? = some view →
      view = (session.subscribe.2.run operations).view) ∧
    ∀ replies, ((session.subscribe.2.run operations).deliverAll replies).2 =
      (session.subscribe.2.run operations).run (replies.map .deliver) := by
  intro heard
  have feeds := session.broadcast.feeds_subscribe
  have listening := arises.published.perform .subscribe
  obtain ⟨chain, last⟩ := session.heard_follows keeps
  refine ⟨chain, ?_, ?_, ?_⟩
  · rintro before operation after rfl earlier
    rw [List.append_cons] at keeps
    have keepsHere : .unsubscribe session.subscribe.1 ∉ before ++ [operation] :=
      fun member => keeps (List.mem_append_left _ member)
    have keepsBefore : .unsubscribe session.subscribe.1 ∉ before :=
      fun member => keepsHere (List.mem_append_left _ member)
    have step : heard (before ++ [operation]) =
        heard before ++ earlier.announced operation :=
      heard_concat feeds keepsHere
    have published : earlier.Published := listening.run before
    obtain ⟨changed, unchanged⟩ := published.announced_iff operation
    rw [step]
    refine ⟨fun moved => by rw [changed moved], ?_⟩
    intro same
    rcases unchanged same with silent | ⟨first, told⟩
    · left
      rw [silent, List.append_nil]
    · have nothing : heard before = [] := by
        rw [← List.getLast?_eq_none_iff, (session.heard_follows keepsBefore).2]
        exact first
      right
      rw [told, nothing]
      exact ⟨rfl, rfl⟩
  · intro view ends
    exact (listening.run operations).current view (last.symm.trans ends)
  · intro replies
    rw [deliverAll_eq_run]

/-- A subscriber of an open file that took what a push brought hears of the
closing. -/
theorem Arises.closing_heard_after_push :
    let start := ((new 2 (some 3)).run openedAtEnd).subscribe.2
    let before : List Operation :=
      [.push { records := [{ position := 6 }, { position := 7 }] }, .take 0]
    start.heard 0 (before ++ [.close]) =
      start.heard 0 before ++ [{ versions := ⟨3, 3⟩ }] := by
  intro start before
  have arises : Arises 2 (some 3) ((new 2 (some 3)).run openedAtEnd) :=
    ⟨openedAtEnd, rfl⟩
  have keeps : .unsubscribe ((new 2 (some 3)).run openedAtEnd).subscribe.1 ∉
      before ++ [.close] := by
    simp [before]
  have facts := arises.subscriber_hears_changes keeps
  exact (facts.2.1 before .close [] rfl).1 (by decide)

end Session
end LogPager
