import LogPager.Proofs.Request.Slots
import Mathlib.Data.List.Induction

/-!
# Who frees a slot

Requests that were handed out come back from elsewhere: late, twice, or with a
number, a generation or an edge that is not theirs.  Over every history of
uses, a slot is held by one request that was made, only that request frees it,
and its flag is raised only where the slots were cancelled while it held one.
-/

namespace LogPager

/-- A use of request slots.  A request that is answered may be any. -/
inductive SlotUse where
  | issue (file : FileRef) (edge : Edge) (anchor : Option Nat) (limit : Nat)
      (reached : Bool)
  | accept (request : Request) (reached : Bool)
  | fail (request : Request) (error : ReadError)
  | cancelAll

theorem CancelFlags.isCancelled_newToken {flags : CancelFlags}
    {token : CancelToken} (known : token.flag < flags.raised.length) :
    flags.newToken.2.isCancelled token = flags.isCancelled token := by
  simp [newToken, isCancelled, List.getElem?_append_left known]

theorem CancelFlags.isCancelled_cancel {flags : CancelFlags}
    {token given : CancelToken} (known : token.flag < flags.raised.length) :
    (flags.cancel given).isCancelled token = true ↔
      flags.isCancelled token = true ∨ given = token := by
  rcases token with ⟨flag⟩
  rcases given with ⟨other⟩
  by_cases same : other = flag
  · subst same
    simp [cancel, isCancelled, List.getElem?_set_self known]
  · simp [cancel, isCancelled, List.getElem?_set_ne same, same]

namespace Slots

/-- The request that a use hands out. -/
def issued? (state : Slots) : SlotUse → Option Request
  | .issue file edge anchor limit reached =>
      (state.issue file edge anchor limit reached).map (·.1)
  | _ => none

/-- The slots after a use. -/
def use (state : Slots) : SlotUse → Slots
  | .issue file edge anchor limit reached =>
      ((state.issue file edge anchor limit reached).map (·.2)).getD state
  | .accept request reached => (state.accept request reached).2
  | .fail request error => (state.fail request error).toOption.getD state
  | .cancelAll => state.cancelAll

def run (state : Slots) (uses : List SlotUse) : Slots :=
  uses.foldl use state

/-- The requests handed out over a run, in order. -/
def madeBy (state : Slots) : List SlotUse → List Request
  | [] => []
  | given :: rest =>
      (state.issued? given).toList ++ (state.use given).madeBy rest

/-- How often a request that held its slot no longer held it after a use. -/
def departures (state : Slots) (request : Request) : List SlotUse → Nat
  | [] => 0
  | given :: rest =>
      (state.holds request && !(state.use given).holds request).toNat +
        (state.use given).departures request rest

theorem run_append (state : Slots) (first second : List SlotUse) :
    state.run (first ++ second) = (state.run first).run second :=
  List.foldl_append

theorem madeBy_append (state : Slots) (first second : List SlotUse) :
    state.madeBy (first ++ second) =
      state.madeBy first ++ (state.run first).madeBy second := by
  induction first generalizing state with
  | nil => rfl
  | cons given rest ih =>
      simp only [List.cons_append, madeBy, ih, List.append_assoc]
      rfl

/-- What a use does to the slots, with the request that it hands out. -/
inductive Used (state : Slots) : SlotUse → Option Request → Slots → Prop where
  | kept {given : SlotUse} (plain : given ≠ .cancelAll) :
      Used state given none state
  | made {file : FileRef} {edge : Edge} {anchor : Option Nat} {limit : Nat}
      (free : state.isInFlight edge = false) :
      Used state (.issue file edge anchor limit false)
        (some (state.nextRequest file edge anchor limit))
        (state.occupied edge)
  | freed {given : SlotUse} {request : Request} {status : SlotStatus}
      (plain : given ≠ .cancelAll) (settled : status ≠ .pending)
      (holds : state.holds request = true) :
      Used state given none (state.freed request.edge status)
  | cancelled : Used state .cancelAll none state.cancelAll

theorem accept_eq (state : Slots) (request : Request) (reached : Bool) :
    state.accept request reached =
      if request.epoch = state.epoch then
        if state.holds request then
          (if reached then .error (.foreclosedBoundary request.edge) else .ok (),
            state.freed request.edge .idle)
        else (.error .unknownRequest, state)
      else (.error .supersededFile, state) := by
  unfold accept
  rw [release_eq]
  by_cases current : request.epoch = state.epoch
  · by_cases holds : state.holds request = true
    · simp only [if_pos current, if_pos holds]
      cases reached <;> rfl
    · simp only [if_pos current, if_neg holds]
  · simp only [if_neg current]

theorem reply_of_holds {state : Slots} {request : Request}
    (current : request.epoch = state.epoch)
    (holds : state.holds request = true) (reached : Bool) (error : ReadError) :
    state.accept request reached =
        (if reached then .error (.foreclosedBoundary request.edge) else .ok (),
          state.freed request.edge .idle) ∧
      state.fail request error =
        .ok (state.freed request.edge (.failed error)) := by
  simp only [accept_eq, fail, release_eq, if_pos current, if_pos holds]
  exact ⟨trivial, trivial⟩

theorem reply_of_foreign {state : Slots} {request : Request}
    (foreign : ¬(request.epoch = state.epoch ∧ state.holds request = true))
    (reached : Bool) (error : ReadError) :
    ∃ stale, state.accept request reached = (.error stale, state) ∧
      state.fail request error = .error stale := by
  rw [accept_eq, fail, release_eq]
  by_cases current : request.epoch = state.epoch
  · have idle : ¬state.holds request = true := fun holds =>
      foreign ⟨current, holds⟩
    simp only [if_pos current, if_neg idle]
    exact ⟨_, rfl, rfl⟩
  · simp only [if_neg current]
    exact ⟨_, rfl, rfl⟩

theorem used (state : Slots) (given : SlotUse) :
    state.Used given (state.issued? given) (state.use given) := by
  cases given with
  | issue file edge anchor limit reached =>
      simp only [issued?, use, issue_eq]
      split
      · exact .kept (by simp)
      · rename_i open_
        obtain ⟨rfl, free⟩ : reached = false ∧ state.isInFlight edge = false := by
          simpa using open_
        exact .made free
  | accept request reached =>
      simp only [issued?, use, accept_eq]
      split
      · split
        · exact .freed (by simp) (by simp) ‹_›
        · exact .kept (by simp)
      · exact .kept (by simp)
  | fail request error =>
      simp only [issued?, use, fail, release_eq]
      split
      · split
        · exact .freed (by simp) (by simp) ‹_›
        · exact .kept (by simp)
      · exact .kept (by simp)
  | cancelAll => exact .cancelled

/-- A holder after a use held its slot before, or is the request made by it. -/
theorem Used.holder {state after : Slots} {given : SlotUse}
    {made : Option Request} (used : state.Used given made after) {edge : Edge}
    {holder : Holder}
    (slot : (after.slots.get edge).holder = some holder) :
    (state.slots.get edge).holder = some holder ∨
      holder.id = state.lastId + 1 := by
  cases used with
  | kept plain => exact .inl slot
  | made free =>
      rcases holder_occupied slot with ⟨_, rfl⟩ | ⟨_, held⟩
      · exact .inr rfl
      · exact .inl held
  | freed plain settled holds => exact .inl (holder_freed slot).2
  | cancelled =>
      rw [holder_cancelAll] at slot
      cases slot

theorem Used.holds {state after : Slots} {given : SlotUse}
    {made : Option Request} (used : state.Used given made after)
    {request : Request} (earlier : request.id ≤ state.lastId)
    (holds : after.holds request = true) : state.holds request = true := by
  obtain ⟨holder, slot, number⟩ := holds_iff.mp holds
  rcases used.holder slot with before | new
  · exact holds_iff.mpr ⟨holder, before, number⟩
  · omega

theorem Used.lastId_le {state after : Slots} {given : SlotUse}
    {made : Option Request} (used : state.Used given made after) :
    state.lastId ≤ after.lastId := by
  cases used with
  | kept | freed | cancelled => exact Nat.le_refl _
  | made free => exact Nat.le_succ _

theorem length_cancelHolder (flags : CancelFlags) (slot : Slot) :
    (cancelHolder flags slot).raised.length = flags.raised.length := by
  unfold cancelHolder
  split <;> simp [CancelFlags.cancel]

/-- The slots as the requests that were made account for them. -/
structure Booked (state : Slots) (made : List Request) : Prop where
  counted : ∀ request ∈ made,
    request.id ≤ state.lastId ∧ request.token.flag < state.flags.raised.length
  growing : made.Pairwise fun earlier later =>
    earlier.id < later.id ∧ earlier.token.flag < later.token.flag
  held : ∀ edge holder, (state.slots.get edge).holder = some holder →
    ∃ request ∈ made, request.edge = edge ∧ request.epoch = state.epoch ∧
      holder = { id := request.id, token := request.token }
  pending : ∀ edge,
    state.status edge = .pending ↔ state.isInFlight edge = true

namespace Booked

theorem start : Booked {} [] := by
  constructor
  · intro request member
    cases member
  · exact List.Pairwise.nil
  · intro edge holder slot
    cases edge <;> cases slot
  · intro edge
    cases edge <;> decide

variable {state : Slots} {made : List Request}

theorem eq_of_shared (booked : state.Booked made) {left right : Request}
    (leftMember : left ∈ made) (rightMember : right ∈ made)
    (shared : left.id = right.id ∨ left.token = right.token) :
    left = right := by
  refine List.Pairwise.forall_of_forall_of_flip
    (R := fun left right =>
      left.id = right.id ∨ left.token.flag = right.token.flag → left = right)
    (fun _ _ _ => rfl) (booked.growing.imp ?_) (booked.growing.imp ?_)
    leftMember rightMember (shared.imp_right (congrArg _))
  · intro left right smaller same
    omega
  · intro left right smaller same
    omega

theorem holder_of_holds (booked : state.Booked made) {request : Request}
    (member : request ∈ made) (holds : state.holds request = true) :
    request.epoch = state.epoch ∧
      (state.slots.get request.edge).holder =
        some { id := request.id, token := request.token } := by
  obtain ⟨holder, slot, number⟩ := holds_iff.mp holds
  obtain ⟨other, otherMember, _, epoch, rfl⟩ := booked.held _ holder slot
  cases booked.eq_of_shared otherMember member (.inl number)
  exact ⟨epoch, slot⟩

theorem id_le_of_holds (booked : state.Booked made) {request : Request}
    (holds : state.holds request = true) : request.id ≤ state.lastId := by
  obtain ⟨holder, slot, number⟩ := holds_iff.mp holds
  obtain ⟨issued, member, _, _, rfl⟩ := booked.held _ holder slot
  exact number ▸ (booked.counted issued member).1

theorem eq_of_holds (booked : state.Booked made) {left right : Request}
    (leftMember : left ∈ made) (rightMember : right ∈ made)
    (same : left.edge = right.edge) (leftHolds : state.holds left = true)
    (rightHolds : state.holds right = true) : left = right := by
  obtain ⟨_, leftSlot⟩ := booked.holder_of_holds leftMember leftHolds
  obtain ⟨_, rightSlot⟩ := booked.holder_of_holds rightMember rightHolds
  rw [same, rightSlot] at leftSlot
  have number : right.id = left.id := by
    simpa using congrArg (Option.map Holder.id) leftSlot
  exact booked.eq_of_shared leftMember rightMember (.inl number.symm)

/-- A slot in flight is held by one request, which was made for its edge under
the current generation. -/
theorem existsUnique_holder (booked : state.Booked made) {edge : Edge}
    (inFlight : state.isInFlight edge = true) :
    ∃! request, request ∈ made ∧ request.edge = edge ∧
      request.epoch = state.epoch ∧
      (state.slots.get edge).holder =
        some { id := request.id, token := request.token } := by
  obtain ⟨holder, slot⟩ := isInFlight_iff.mp inFlight
  obtain ⟨request, member, rfl, epoch, rfl⟩ := booked.held edge holder slot
  refine ⟨request, ⟨member, rfl, epoch, slot⟩, ?_⟩
  rintro other ⟨otherMember, same, _, otherSlot⟩
  have otherHolds : state.holds other = true :=
    holds_iff.mpr ⟨_, same ▸ otherSlot, rfl⟩
  exact booked.eq_of_holds otherMember member same otherHolds
    (holds_iff.mpr ⟨_, slot, rfl⟩)

/-- A request that its slot would be freed for is one of those made, as far as
its number, its generation and its edge go. -/
theorem exists_made (booked : state.Booked made) {request : Request}
    (current : request.epoch = state.epoch)
    (holds : state.holds request = true) :
    ∃ issued ∈ made, issued.id = request.id ∧ issued.epoch = request.epoch ∧
      issued.edge = request.edge ∧ state.holds issued = true := by
  obtain ⟨holder, slot, number⟩ := holds_iff.mp holds
  obtain ⟨issued, member, edge, epoch, rfl⟩ := booked.held _ holder slot
  refine ⟨issued, member, number, epoch.trans current.symm, edge, ?_⟩
  exact holds_iff.mpr ⟨_, edge ▸ slot, rfl⟩

theorem occupied (booked : state.Booked made) (file : FileRef) (edge : Edge)
    (anchor : Option Nat) (limit : Nat) :
    (state.occupied edge).Booked
      (made ++ [state.nextRequest file edge anchor limit]) := by
  have flags : state.flags.newToken.2.raised.length =
      state.flags.raised.length + 1 := by
    simp [CancelFlags.newToken]
  constructor
  · intro request member
    rcases List.mem_append.mp member with earlier | last
    · have := booked.counted request earlier
      simp only [Slots.occupied, flags]
      omega
    · cases List.mem_singleton.mp last
      simp only [Slots.occupied, nextRequest, flags]
      exact ⟨Nat.le_refl _, Nat.lt_succ_self _⟩
  · refine List.pairwise_append.mpr
      ⟨booked.growing, List.pairwise_singleton _ _, ?_⟩
    intro earlier member later last
    cases List.mem_singleton.mp last
    have known := booked.counted earlier member
    exact ⟨Nat.lt_succ_of_le known.1, known.2⟩
  · intro other holder slot
    rcases holder_occupied slot with ⟨rfl, same⟩ | ⟨_, held⟩
    · exact ⟨_, List.mem_append_right _ (List.mem_singleton.mpr rfl), rfl,
        rfl, same⟩
    · obtain ⟨request, member, rest⟩ := booked.held other holder held
      exact ⟨request, List.mem_append_left _ member, rest⟩
  · intro other
    have earlier := booked.pending other
    simp only [status, isInFlight, Slots.occupied, PerEdge.get_set] at earlier ⊢
    split
    · simp
    · exact earlier

theorem freed (booked : state.Booked made) (edge : Edge) {status : SlotStatus}
    (settled : status ≠ .pending) : (state.freed edge status).Booked made := by
  refine ⟨booked.counted, booked.growing, ?_, ?_⟩
  · intro other holder slot
    exact booked.held other holder (holder_freed slot).2
  · intro other
    have earlier := booked.pending other
    simp only [Slots.status, isInFlight, Slots.freed, PerEdge.get_set]
      at earlier ⊢
    split
    · simp [settled]
    · exact earlier

theorem cancelAll (booked : state.Booked made) :
    state.cancelAll.Booked made := by
  refine ⟨?_, booked.growing, ?_, ?_⟩
  · intro request member
    have known := booked.counted request member
    exact ⟨known.1, by
      simpa only [Slots.cancelAll, length_cancelHolder] using known.2⟩
  · intro edge holder slot
    rw [holder_cancelAll] at slot
    cases slot
  · intro edge
    simp [status, isInFlight, Slots.cancelAll]

/-- A use keeps the books, with the request that it hands out. -/
theorem use (booked : state.Booked made) {given : SlotUse} {after : Slots}
    {issued : Option Request} (used : state.Used given issued after) :
    after.Booked (made ++ issued.toList) := by
  cases used with
  | kept plain => simpa using booked
  | made free => exact booked.occupied _ _ _ _
  | freed plain settled holds => simpa using booked.freed _ settled
  | cancelled => simpa using booked.cancelAll

theorem run (history : List SlotUse) :
    (Slots.run {} history).Booked (Slots.madeBy {} history) := by
  induction history using List.reverseRecOn with
  | nil => exact start
  | append_singleton history given ih =>
      rw [run_append, madeBy_append]
      simp only [madeBy, List.append_nil]
      exact ih.use (used _ given)

end Booked

theorem lastId_le_run (state : Slots) (history : List SlotUse) :
    state.lastId ≤ (state.run history).lastId := by
  induction history generalizing state with
  | nil => exact Nat.le_refl _
  | cons given rest ih => exact Nat.le_trans (used state given).lastId_le (ih _)

/-- A request leaves its slot once at most: before it is made it holds none,
and it does not come back to one. -/
theorem Booked.departures_le {state : Slots} {made : List Request}
    (booked : state.Booked made) (request : Request) (history : List SlotUse) :
    state.departures request history ≤
      if request.id ≤ state.lastId then (state.holds request).toNat else 1 := by
  induction history generalizing state made with
  | nil => exact Nat.zero_le _
  | cons given rest ih =>
      have later := ih (booked.use (used state given))
      simp only [departures]
      by_cases earlier : request.id ≤ state.lastId
      · have known := Nat.le_trans earlier (used state given).lastId_le
        rw [if_pos known] at later
        rw [if_pos earlier]
        have kept := (used state given).holds earlier
        cases before : state.holds request
        · cases after : (state.use given).holds request
          · simpa [after] using later
          · simp [kept after] at before
        · cases after : (state.use given).holds request <;>
            simp [after] at later ⊢ <;> omega
      · have idle : state.holds request = false := by
          rw [← Bool.not_eq_true]
          exact fun holds => earlier (booked.id_le_of_holds holds)
        rw [if_neg earlier]
        simp only [idle, Bool.false_and, Bool.toNat_false, Nat.zero_add]
        refine Nat.le_trans later ?_
        split
        · exact Bool.toNat_le _
        · exact Nat.le_refl _

/-- Over a history the request held its slot when the slots were cancelled. -/
def CancelledIn (history : List SlotUse) (request : Request) : Prop :=
  ∃ before after, history = before ++ .cancelAll :: after ∧
    (Slots.run {} before).holds request = true

theorem cancelledIn_append (history : List SlotUse) (given : SlotUse)
    (request : Request) :
    CancelledIn (history ++ [given]) request ↔
      CancelledIn history request ∨
        (given = .cancelAll ∧ (Slots.run {} history).holds request = true) := by
  constructor
  · rintro ⟨before, after, parts, holds⟩
    rcases List.eq_nil_or_concat after with rfl | ⟨middle, last, rfl⟩
    · obtain ⟨rfl, same⟩ := List.append_inj' parts rfl
      exact .inr ⟨List.head_eq_of_cons_eq same, holds⟩
    · rw [List.concat_eq_append, ← List.cons_append, ← List.append_assoc]
        at parts
      obtain ⟨rfl, _⟩ := List.append_inj' parts rfl
      exact .inl ⟨before, middle, rfl, holds⟩
  · rintro (⟨before, after, rfl, holds⟩ | ⟨rfl, holds⟩)
    · exact ⟨before, after ++ [given], by simp, holds⟩
    · exact ⟨history, [], rfl, holds⟩

theorem isCancelled_cancelHolder {flags : CancelFlags} {slot : Slot}
    {token : CancelToken} (known : token.flag < flags.raised.length) :
    (cancelHolder flags slot).isCancelled token = true ↔
      flags.isCancelled token = true ∨
        ∃ holder, slot.holder = some holder ∧ holder.token = token := by
  unfold cancelHolder
  split
  · rename_i holder held
    simp [CancelFlags.isCancelled_cancel known, held]
  · rename_i vacant
    simp [vacant]

namespace Booked

variable {state : Slots} {made : List Request}

/-- The flag of a request is that of a holder only while it holds its slot. -/
theorem exists_token_iff (booked : state.Booked made) {request : Request}
    (member : request ∈ made) :
    (∃ edge holder, (state.slots.get edge).holder = some holder ∧
        holder.token = request.token) ↔
      state.holds request = true := by
  constructor
  · rintro ⟨edge, holder, slot, token⟩
    obtain ⟨other, otherMember, rfl, _, rfl⟩ := booked.held edge holder slot
    cases booked.eq_of_shared otherMember member (.inr token)
    exact holds_iff.mpr ⟨_, slot, rfl⟩
  · intro holds
    exact ⟨_, _, (booked.holder_of_holds member holds).2, rfl⟩

theorem isCancelled_cancelAll (booked : state.Booked made) {request : Request}
    (member : request ∈ made) :
    state.cancelAll.isCancelled request = true ↔
      state.isCancelled request = true ∨ state.holds request = true := by
  have known := (booked.counted request member).2
  rw [← booked.exists_token_iff member]
  simp only [isCancelled, Slots.cancelAll]
  rw [isCancelled_cancelHolder (by rwa [length_cancelHolder]),
    isCancelled_cancelHolder known, or_assoc]
  refine or_congr_right ⟨?_, ?_⟩
  · rintro (older | newer)
    · exact ⟨.older, older⟩
    · exact ⟨.newer, newer⟩
  · rintro ⟨edge, holder⟩
    cases edge with
    | older => exact .inl holder
    | newer => exact .inr holder

theorem isCancelled_use (booked : state.Booked made) {after : Slots}
    {given : SlotUse} {issued : Option Request}
    (used : state.Used given issued after) {request : Request}
    (member : request ∈ made) :
    after.isCancelled request = true ↔
      state.isCancelled request = true ∨
        (given = .cancelAll ∧ state.holds request = true) := by
  cases used with
  | kept plain => simp [plain]
  | made free =>
      simp only [isCancelled, Slots.occupied, reduceCtorEq, false_and, or_false,
        CancelFlags.isCancelled_newToken (booked.counted request member).2]
  | freed plain settled holds => simp [plain, isCancelled, Slots.freed]
  | cancelled => simpa using booked.isCancelled_cancelAll member

end Booked

theorem Used.fresh {state after : Slots} {given : SlotUse} {request : Request}
    (used : state.Used given (some request) after) :
    state.lastId < request.id ∧ given ≠ .cancelAll ∧
      after.isCancelled request = false := by
  cases used with
  | made free =>
      refine ⟨Nat.lt_succ_self _, by simp, ?_⟩
      simp [isCancelled, occupied, nextRequest, CancelFlags.newToken,
        CancelFlags.isCancelled]

theorem not_cancelledIn {history : List SlotUse} {request : Request}
    (later : (Slots.run {} history).lastId < request.id) :
    ¬CancelledIn history request := by
  rintro ⟨before, after, rfl, holds⟩
  have counted := (Booked.run before).id_le_of_holds holds
  rw [run_append] at later
  exact absurd (Nat.le_trans counted (lastId_le_run _ _)) (Nat.not_le.mpr later)

theorem isCancelled_iff (history : List SlotUse) :
    ∀ request ∈ madeBy {} history,
      (Slots.run {} history).isCancelled request = true ↔
        CancelledIn history request := by
  induction history using List.reverseRecOn with
  | nil =>
      intro request member
      cases member
  | append_singleton history given ih =>
      intro request member
      have booked := Booked.run history
      rw [madeBy_append] at member
      rw [run_append, cancelledIn_append]
      change ((Slots.run {} history).use given).isCancelled request = true ↔ _
      rcases List.mem_append.mp member with earlier | new
      · rw [← ih request earlier]
        exact booked.isCancelled_use (used _ given) earlier
      · have fresh : (Slots.run {} history).issued? given = some request := by
          simpa [madeBy] using new
        have made := used (Slots.run {} history) given
        rw [fresh] at made
        obtain ⟨later, plain, lowered⟩ := made.fresh
        have unheld := not_cancelledIn later
        simpa [plain, unheld] using lowered

/-- A request that was made and holds its slot has the number, the generation
and the edge of a given one. -/
def NamesHolder (history : List SlotUse) (given : Request) : Prop :=
  ∃ request ∈ madeBy {} history, request.id = given.id ∧
    request.epoch = given.epoch ∧ request.edge = given.edge ∧
    (Slots.run {} history).holds request = true

theorem namesHolder_iff (history : List SlotUse) (given : Request) :
    NamesHolder history given ↔
      given.epoch = (Slots.run {} history).epoch ∧
        (Slots.run {} history).holds given = true := by
  have booked := Booked.run history
  constructor
  · rintro ⟨request, member, number, epoch, edge, holds⟩
    refine ⟨epoch ▸ (booked.holder_of_holds member holds).1, ?_⟩
    simpa only [Slots.holds, number, edge] using holds
  · rintro ⟨current, holds⟩
    exact booked.exists_made current holds

/-- Over every history of uses, whatever the requests that are answered: the
numbers of requests differ; an edge is pending while its slot is held, which
is by one request that was made for it under the current generation; a reply
frees a slot for the request that holds it and changes nothing for any other;
a request leaves its slot once at most; and its flag is raised where the slots
were cancelled while it held one. -/
theorem released_once_by_holder (history : List SlotUse) :
    let state := Slots.run {} history
    let made := madeBy {} history
    made.Pairwise (fun left right => left.id ≠ right.id) ∧
      (∀ edge,
        (state.status edge = .pending ↔ state.isInFlight edge = true) ∧
        (state.isInFlight edge = true →
          ∃! request, request ∈ made ∧ request.edge = edge ∧
            request.epoch = state.epoch ∧
            (state.slots.get edge).holder =
              some { id := request.id, token := request.token })) ∧
      (∀ given reached error,
        (NamesHolder history given →
          state.accept given reached =
            (if reached then .error (.foreclosedBoundary given.edge) else .ok (),
              state.freed given.edge .idle) ∧
          state.fail given error =
            .ok (state.freed given.edge (.failed error))) ∧
        (¬NamesHolder history given → ∃ stale,
          state.accept given reached = (.error stale, state) ∧
          state.fail given error = .error stale)) ∧
      (∀ request, departures {} request history ≤ 1) ∧
      ∀ request ∈ made,
        state.isCancelled request = true ↔ CancelledIn history request := by
  intro state made
  have booked : state.Booked made := Booked.run history
  refine ⟨?_, ?_, ?_, ?_, isCancelled_iff history⟩
  · exact booked.growing.imp fun smaller => Nat.ne_of_lt smaller.1
  · intro edge
    exact ⟨booked.pending edge, booked.existsUnique_holder⟩
  · intro given reached error
    rw [namesHolder_iff]
    constructor
    · rintro ⟨current, holds⟩
      exact reply_of_holds current holds reached error
    · intro foreign
      exact reply_of_foreign foreign reached error
  · intro request
    refine Nat.le_trans (Booked.start.departures_le request history) ?_
    split
    · exact Bool.toNat_le _
    · exact Nat.le_refl _

end Slots
end LogPager
