import TransmitQueue.Proofs.Ring.Cancellation

/-!
# A ring as three lists

To its users a ring is three lists of packets, first in first out: the released ones, those in
flight and those that wait. A packet enters at the end of the last list, goes from the head of
each list to the end of the one before it, and leaves at the head of the first. Every operation
of the ring answers, and changes its slots, as these lists tell, however often the cursors have
gone around and whatever was left in a slot by the packets before.
-/

namespace TransmitQueue

/-- A packet that a ring holds, with its state and its mark. -/
structure RingEntry (P : Type) where
  packet : P
  state : PacketState
  cancelled : Bool

/-- The slot of a packet. -/
def RingEntry.slot {P : Type} (entry : RingEntry P) : RingSlot P :=
  ⟨some entry.packet, entry.state, entry.cancelled⟩

/-- What the users of a ring do with it. -/
inductive RingOperation (P : Type) where
  | post (packet : P)
  /-- Gives the oldest waiting packet a state and moves it in flight. -/
  | dispatch (state : PacketState)
  /-- Releases the oldest packet in flight. -/
  | release (completion : Completion)
  | cancel
  | pop

/-- What the users of a ring are told. -/
inductive RingAnswer (P : Type) where
  /-- The packet that was handed back, if there was no room for it. -/
  | posted (rejected : Option P)
  /-- Whether there was a packet to move. -/
  | moved (found : Bool)
  | cancelled (count : Nat)
  | popped (packet : Option (CompletedPacket P))

/-- The packets of a ring in three lists, the oldest packet of each at its head. -/
structure PacketLists (P : Type) where
  capacity : Nat
  released : List (RingEntry P) := []
  inFlight : List (RingEntry P) := []
  waiting : List (RingEntry P) := []

/-- Operations performed one after another, with their answers. -/
def performAll {S O A : Type} (perform : S → O → A × S) (start : S) : List O → List A × S
  | [] => ([], start)
  | operation :: rest =>
      let (answer, next) := perform start operation
      let (answers, last) := performAll perform next rest
      (answer :: answers, last)

namespace PacketLists

variable {P : Type} (lists : PacketLists P)

/-- All packets, oldest first. -/
def all : List (RingEntry P) := lists.released ++ lists.inFlight ++ lists.waiting

/-- A packet goes from the head of one list to the end of the one before. -/
def perform : RingOperation P → RingAnswer P × PacketLists P
  | .post packet =>
      if lists.all.length < lists.capacity then
        (.posted none, { lists with waiting := lists.waiting ++ [⟨packet, .unposted, false⟩] })
      else (.posted (some packet), lists)
  | .dispatch state =>
      match lists.waiting with
      | [] => (.moved false, lists)
      | entry :: rest =>
          (.moved true,
            { lists with inFlight := lists.inFlight ++ [{ entry with state }], waiting := rest })
  | .release completion =>
      match lists.inFlight with
      | [] => (.moved false, lists)
      | entry :: rest =>
          (.moved true,
            { lists with
              released := lists.released ++ [{ entry with state := .released completion }]
              inFlight := rest })
  | .cancel =>
      (.cancelled (lists.waiting.countP fun entry => !entry.cancelled),
        { lists with waiting := lists.waiting.map fun entry => { entry with cancelled := true } })
  | .pop =>
      match lists.released with
      | ⟨packet, .released completion, _⟩ :: rest =>
          (.popped (some ⟨packet, completion⟩), { lists with released := rest })
      | _ => (.popped none, lists)

theorem capacity_perform (operation : RingOperation P) :
    (lists.perform operation).2.capacity = lists.capacity := by
  cases operation with
  | post packet =>
      dsimp only [perform]
      split <;> rfl
  | dispatch state =>
      dsimp only [perform]
      split <;> rfl
  | release completion =>
      dsimp only [perform]
      split <;> rfl
  | cancel => rfl
  | pop =>
      dsimp only [perform]
      split <;> rfl

theorem capacity_performAll (operations : List (RingOperation P)) :
    (performAll perform lists operations).2.capacity = lists.capacity := by
  induction operations generalizing lists with
  | nil => rfl
  | cons operation rest ih => exact (ih _).trans (lists.capacity_perform operation)

end PacketLists

namespace PacketRing

variable {P : Type}

section Perform

variable (ring : PacketRing P)

/-- A ring is asked for the packet to move before its cursor moves. -/
def perform : RingOperation P → RingAnswer P × PacketRing P
  | .post packet =>
      match ring.post packet with
      | .ok next => (.posted none, next)
      | .error packet => (.posted (some packet), ring)
  | .dispatch state =>
      match ring.nextUnposted? with
      | none => (.moved false, ring)
      | some _ => (.moved true, ring.admitNext state)
  | .release completion =>
      match ring.oldestInFlight? with
      | none => (.moved false, ring)
      | some _ => (.moved true, ring.release completion)
  | .cancel => (.cancelled ring.cancelUnposted.1, ring.cancelUnposted.2)
  | .pop =>
      match ring.pop? with
      | none => (.popped none, ring)
      | some (packet, next) => (.popped (some packet), next)

end Perform

/-- The slots from a cursor on hold these packets, one after another. -/
def Spells (ring : PacketRing P) : Nat → List (RingEntry P) → Prop
  | _, [] => True
  | cursor, entry :: rest => ring.slot cursor = entry.slot ∧ ring.Spells (cursor + 1) rest

section Spells

variable {ring next : PacketRing P} {cursor : Nat} {entries more : List (RingEntry P)}

theorem spells_append : ring.Spells cursor (entries ++ more) ↔
    ring.Spells cursor entries ∧ ring.Spells (cursor + entries.length) more := by
  induction entries generalizing cursor with
  | nil => exact (and_iff_right trivial).symm
  | cons entry rest ih =>
      have hcursor : cursor + (entry :: rest).length = cursor + 1 + rest.length := by
        rw [List.length_cons]
        omega
      rw [hcursor]
      exact (and_congr_right fun _ => ih).trans and_assoc.symm

theorem Spells.slot_eq (hspells : ring.Spells cursor entries) {index : Nat} {entry : RingEntry P}
    (hentry : entries[index]? = some entry) : ring.slot (cursor + index) = entry.slot := by
  induction entries generalizing cursor index with
  | nil => cases hentry
  | cons first rest ih =>
      cases index with
      | zero =>
          obtain rfl := Option.some.inj hentry
          exact hspells.1
      | succ index =>
          rw [← Nat.add_assoc, Nat.add_right_comm]
          exact ih hspells.2 hentry

theorem Spells.congr (hspells : ring.Spells cursor entries)
    (hsame : ∀ other, cursor ≤ other → other < cursor + entries.length →
      next.slot other = ring.slot other) : next.Spells cursor entries := by
  induction entries generalizing cursor with
  | nil => trivial
  | cons entry rest ih =>
      rw [List.length_cons] at hsame
      exact ⟨(hsame cursor (Nat.le_refl _) (by omega)).trans hspells.1,
        ih hspells.2 fun other hlow hhigh => hsame other (by omega) (by omega)⟩

/-- A write before or behind the packets makes no difference. -/
theorem Spells.frame (hspells : ring.Spells cursor entries) {written : Nat}
    {slot : Nat → RingSlot P}
    (hslot : ∀ other, cursor ≤ other → other < cursor + entries.length →
      next.slot other = if other = written then slot other else ring.slot other)
    (happart : written < cursor ∨ cursor + entries.length ≤ written) :
    next.Spells cursor entries := by
  refine hspells.congr fun other hlow hhigh => ?_
  rw [hslot other hlow hhigh, if_neg (by omega)]

theorem Spells.cancelled (hspells : ring.Spells cursor entries)
    (hmarked : ∀ other, cursor ≤ other → other < cursor + entries.length →
      next.slot other = { ring.slot other with cancelled := true }) :
    next.Spells cursor (entries.map fun entry => { entry with cancelled := true }) := by
  induction entries generalizing cursor with
  | nil => trivial
  | cons entry rest ih =>
      rw [List.length_cons] at hmarked
      refine ⟨(hmarked cursor (Nat.le_refl _) (by omega)).trans ?_,
        ih hspells.2 fun other hlow hhigh => hmarked other (by omega) (by omega)⟩
      rw [hspells.1]
      rfl

/-- The packets that a cancellation counts are those of the list that are not marked. -/
theorem Spells.unmarked_eq (hspells : ring.Spells cursor entries) :
    ring.unmarked cursor entries.length = entries.countP fun entry => !entry.cancelled := by
  induction entries generalizing cursor with
  | nil => rfl
  | cons entry rest ih =>
      have hrest : (List.range' (cursor + 1) rest.length).countP
          (fun waiting => !(ring.slot waiting).cancelled) = _ := ih hspells.2
      rw [unmarked, List.length_cons, List.range'_succ, List.countP_cons, List.countP_cons, hrest,
        hspells.1]
      rfl

end Spells

/-- The slots between the cursors of a ring hold the packets of three lists. -/
structure Mirrors (ring : PacketRing P) (lists : PacketLists P) : Prop where
  ordered : ring.Ordered
  capacity_eq : ring.capacity = lists.capacity
  released_eq : ring.released = ring.taken + lists.released.length
  admitted_eq : ring.admitted = ring.released + lists.inFlight.length
  posted_eq : ring.posted = ring.admitted + lists.waiting.length
  released : ring.Spells ring.taken lists.released
  inFlight : ring.Spells ring.released lists.inFlight
  waiting : ring.Spells ring.admitted lists.waiting
  /-- A packet of the first list has its outcome. -/
  concluded : ∀ entry ∈ lists.released, ∃ completion, entry.state = .released completion

theorem mirrors_empty {capacity : Nat} (hcapacity : 0 < capacity) :
    (empty capacity : PacketRing P).Mirrors { capacity := capacity } where
  ordered := ordered_empty hcapacity
  capacity_eq := capacity_empty capacity
  released_eq := rfl
  admitted_eq := rfl
  posted_eq := rfl
  released := trivial
  inFlight := trivial
  waiting := trivial
  concluded := nofun

namespace Mirrors

variable {ring : PacketRing P} {lists : PacketLists P} (hmirrors : ring.Mirrors lists)
include hmirrors

theorem length_all : lists.all.length = ring.posted - ring.taken := by
  have hreleased := hmirrors.released_eq
  have hadmitted := hmirrors.admitted_eq
  have hposted := hmirrors.posted_eq
  unfold PacketLists.all
  rw [List.length_append, List.length_append]
  omega

theorem spells_all : ring.Spells ring.taken lists.all := by
  unfold PacketLists.all
  rw [spells_append, spells_append, List.length_append, ← Nat.add_assoc, ← hmirrors.released_eq,
    ← hmirrors.admitted_eq]
  exact ⟨⟨hmirrors.released, hmirrors.inFlight⟩, hmirrors.waiting⟩

theorem length_all_le : lists.all.length ≤ lists.capacity := by
  have hspan := hmirrors.ordered.posted_le
  rw [hmirrors.length_all, ← hmirrors.capacity_eq]
  omega

/-- A post fails exactly if the lists have as many packets as the ring has slots. -/
theorem isFull_iff : ring.isFull = true ↔ lists.all.length = lists.capacity := by
  have hspan := hmirrors.ordered.posted_le
  rw [PacketRing.isFull_iff, hmirrors.length_all, ← hmirrors.capacity_eq]
  omega

theorem post {packet : P} {next : PacketRing P} (hpost : ring.post packet = .ok next) :
    next.Mirrors { lists with waiting := lists.waiting ++ [⟨packet, .unposted, false⟩] } := by
  obtain ⟨hordered, hcapacity, hreleased, hadmitted, hposted, hfirst, hsecond, hthird,
    hconcluded⟩ := hmirrors
  have hslot : ∀ other, ring.taken ≤ other → other ≤ ring.posted → next.slot other =
      if other = ring.posted then .fresh packet else ring.slot other :=
    fun other hlow hhigh => hordered.slot_post hpost ⟨hlow, hhigh⟩
  obtain ⟨hsame, htaken, hstart, hmiddle, hend⟩ : next.capacity = ring.capacity ∧
      next.taken = ring.taken ∧ next.released = ring.released ∧
      next.admitted = ring.admitted ∧ next.posted = ring.posted + 1 := by
    obtain ⟨_, rfl⟩ := post_eq_ok_iff.mp hpost
    exact ⟨ring.capacity_setSlot _ _, rfl, rfl, rfl, rfl⟩
  -- Whatever was in the slot before, the new packet is all that is left there.
  have hlast : next.slot (ring.admitted + lists.waiting.length) = .fresh packet := by
    rw [← hposted, hslot ring.posted (by omega) (Nat.le_refl _), if_pos rfl]
  refine ⟨hordered.post hpost, hsame.trans hcapacity, by dsimp only; omega, by dsimp only; omega,
    ?_, ?_, ?_, ?_, hconcluded⟩
  · rw [List.length_append, List.length_singleton]
    omega
  · rw [htaken]
    exact hfirst.frame (fun other hlow hhigh => hslot other (by omega) (by omega)) (by omega)
  · rw [hstart]
    exact hsecond.frame (fun other hlow hhigh => hslot other (by omega) (by omega)) (by omega)
  · rw [hmiddle]
    have hbefore := hthird.frame
      (fun other hlow hhigh => hslot other (by omega) (by omega)) (by omega)
    exact spells_append.mpr ⟨hbefore, hlast, trivial⟩

theorem admitNext (state : PacketState) {entry : RingEntry P} {rest : List (RingEntry P)}
    (hwaiting : lists.waiting = entry :: rest) :
    (ring.admitNext state).Mirrors
      { lists with inFlight := lists.inFlight ++ [{ entry with state }], waiting := rest } := by
  obtain ⟨hordered, hcapacity, hreleased, hadmitted, hposted, hfirst, hsecond, hthird,
    hconcluded⟩ := hmirrors
  rw [hwaiting] at hposted hthird
  rw [List.length_cons] at hposted
  have hroom : ring.admitted < ring.posted := by omega
  have hslot : ∀ other, ring.taken ≤ other → other < ring.posted →
      (ring.admitNext state).slot other =
        if other = ring.admitted then { ring.slot other with state := state }
        else ring.slot other :=
    fun other hlow hhigh => hordered.slot_admitNext state hroom ⟨hlow, hhigh⟩
  -- The packet stays in its slot: only the border between the lists moves past it.
  have hmoved : (ring.admitNext state).slot (ring.released + lists.inFlight.length) =
      RingEntry.slot { entry with state } := by
    rw [← hadmitted, hslot ring.admitted (by omega) hroom, if_pos rfl, hthird.1]
    rfl
  refine ⟨hordered.admitNext state hroom, (ring.capacity_admitNext state).trans hcapacity,
    hreleased, ?_, ?_, ?_, ?_, ?_, hconcluded⟩
  · rw [List.length_append, List.length_singleton]
    exact congrArg (· + 1) hadmitted
  · change ring.posted = ring.admitted + 1 + rest.length
    omega
  · exact hfirst.frame (fun other hlow hhigh => hslot other (by omega) (by omega)) (by omega)
  · have hbefore := hsecond.frame
      (fun other hlow hhigh => hslot other (by omega) (by omega)) (by omega)
    exact spells_append.mpr ⟨hbefore, hmoved, trivial⟩
  · change (ring.admitNext state).Spells (ring.admitted + 1) rest
    exact Spells.frame hthird.2 (fun other hlow hhigh => hslot other (by omega) (by omega))
      (by omega)

theorem release (completion : Completion) {entry : RingEntry P} {rest : List (RingEntry P)}
    (hinFlight : lists.inFlight = entry :: rest) :
    (ring.release completion).Mirrors
      { lists with
        released := lists.released ++ [{ entry with state := .released completion }]
        inFlight := rest } := by
  obtain ⟨hordered, hcapacity, hreleased, hadmitted, hposted, hfirst, hsecond, hthird,
    hconcluded⟩ := hmirrors
  rw [hinFlight] at hadmitted hsecond
  rw [List.length_cons] at hadmitted
  have hbusy : ring.released < ring.admitted := by omega
  have hslot : ∀ other, ring.taken ≤ other → other < ring.posted →
      (ring.release completion).slot other =
        if other = ring.released then { ring.slot other with state := .released completion }
        else ring.slot other :=
    fun other hlow hhigh => hordered.slot_release completion hbusy ⟨hlow, hhigh⟩
  have hmoved : (ring.release completion).slot (ring.taken + lists.released.length) =
      RingEntry.slot { entry with state := .released completion } := by
    rw [← hreleased, hslot ring.released (by omega) (by omega), if_pos rfl, hsecond.1]
    rfl
  refine ⟨hordered.release completion hbusy, (ring.capacity_release completion).trans hcapacity,
    ?_, ?_, hposted, ?_, ?_, ?_, ?_⟩
  · rw [List.length_append, List.length_singleton]
    exact congrArg (· + 1) hreleased
  · change ring.admitted = ring.released + 1 + rest.length
    omega
  · have hbefore := hfirst.frame
      (fun other hlow hhigh => hslot other (by omega) (by omega)) (by omega)
    exact spells_append.mpr ⟨hbefore, hmoved, trivial⟩
  · change (ring.release completion).Spells (ring.released + 1) rest
    exact Spells.frame hsecond.2 (fun other hlow hhigh => hslot other (by omega) (by omega))
      (by omega)
  · exact hthird.frame (fun other hlow hhigh => hslot other (by omega) (by omega)) (by omega)
  · intro other hother
    rcases List.mem_append.mp hother with hbefore | hlast
    · exact hconcluded other hbefore
    · obtain rfl := List.mem_singleton.mp hlast
      exact ⟨completion, rfl⟩

theorem cancelUnposted :
    ring.cancelUnposted.1 = lists.waiting.countP (fun entry => !entry.cancelled) ∧
      ring.cancelUnposted.2.Mirrors
        { lists with
          waiting := lists.waiting.map fun entry => { entry with cancelled := true } } := by
  obtain ⟨hordered, hcapacity, hreleased, hadmitted, hposted, hfirst, hsecond, hthird,
    hconcluded⟩ := hmirrors
  obtain ⟨hsame, htaken, hstart, hmiddle, hend⟩ := cancelFrom_snd ring ring.admitted ring.unposted
  -- The walk begins with the last list and ends with it.
  have hcount : ring.unposted = lists.waiting.length := by
    unfold unposted
    omega
  have hslot : ∀ other, ring.taken ≤ other → other < ring.posted →
      ring.cancelUnposted.2.slot other =
        if ring.admitted ≤ other then { ring.slot other with cancelled := true }
        else ring.slot other :=
    fun other hlow hhigh => hordered.slot_cancelUnposted ⟨hlow, hhigh⟩
  refine ⟨?_, hordered.cancelUnposted, hsame.trans hcapacity, ?_, ?_, ?_, ?_, ?_, ?_, hconcluded⟩
  · refine (ring.cancelFrom_fst hordered.unposted_le).trans ?_
    rw [hcount]
    exact hthird.unmarked_eq
  · exact hstart.trans (htaken.symm ▸ hreleased)
  · exact hmiddle.trans (hstart.symm ▸ hadmitted)
  · rw [List.length_map]
    exact hend.trans (hmiddle.symm ▸ hposted)
  · refine htaken.symm ▸ hfirst.congr fun other hlow hhigh => ?_
    rw [hslot other (by omega) (by omega), if_neg (by omega)]
  · refine hstart.symm ▸ hsecond.congr fun other hlow hhigh => ?_
    rw [hslot other (by omega) (by omega), if_neg (by omega)]
  · refine hmiddle.symm ▸ hthird.cancelled fun other hlow hhigh => ?_
    rw [hslot other (by omega) (by omega), if_pos hlow]

theorem pop {completed : CompletedPacket P} {next : PacketRing P} {entry : RingEntry P}
    {rest : List (RingEntry P)} (hpop : ring.pop? = some (completed, next))
    (hhead : lists.released = entry :: rest) : next.Mirrors { lists with released := rest } := by
  obtain ⟨hordered, hcapacity, hreleased, hadmitted, hposted, hfirst, hsecond, hthird,
    hconcluded⟩ := hmirrors
  rw [hhead] at hreleased hfirst hconcluded
  rw [List.length_cons] at hreleased
  have hslot : ∀ other, ring.taken < other → other < ring.posted →
      next.slot other = ring.slot other :=
    fun other hlow hhigh => hordered.slot_pop hpop ⟨hlow, hhigh⟩
  have hnext := hordered.pop hpop
  obtain ⟨_, _, _, rfl⟩ := pop?_eq_some_iff.mp hpop
  refine ⟨hnext, (ring.capacity_setSlot _ _).trans hcapacity, ?_, hadmitted, hposted, ?_, ?_, ?_,
    (List.forall_mem_cons.mp hconcluded).2⟩
  · change ring.released = ring.taken + 1 + rest.length
    omega
  · change PacketRing.Spells _ (ring.taken + 1) rest
    exact Spells.congr hfirst.2 fun other hlow hhigh => hslot other (by omega) (by omega)
  · exact hsecond.congr fun other hlow hhigh => hslot other (by omega) (by omega)
  · exact hthird.congr fun other hlow hhigh => hslot other (by omega) (by omega)

theorem perform_post (packet : P) :
    (ring.perform (.post packet)).1 = (lists.perform (.post packet)).1 ∧
      (ring.perform (.post packet)).2.Mirrors (lists.perform (.post packet)).2 := by
  have hfull := hmirrors.isFull_iff
  have hfits := hmirrors.length_all_le
  by_cases hroom : lists.all.length < lists.capacity
  · have hnotFull : ring.isFull = false := Bool.eq_false_iff.mpr fun h => by
      have hequal := hfull.mp h
      omega
    have hpost : ring.post packet = .ok _ := post_eq_ok_iff.mpr ⟨hnotFull, rfl⟩
    have hlists : lists.perform (.post packet) = (.posted none, _) := if_pos hroom
    dsimp only [PacketRing.perform]
    rw [hpost, hlists]
    exact ⟨rfl, hmirrors.post hpost⟩
  · have hpost : ring.post packet = .error packet := if_pos (hfull.mpr (by omega))
    have hlists : lists.perform (.post packet) = (.posted (some packet), lists) := if_neg hroom
    dsimp only [PacketRing.perform]
    rw [hpost, hlists]
    exact ⟨rfl, hmirrors⟩

theorem perform_dispatch (state : PacketState) :
    (ring.perform (.dispatch state)).1 = (lists.perform (.dispatch state)).1 ∧
      (ring.perform (.dispatch state)).2.Mirrors (lists.perform (.dispatch state)).2 := by
  have hposted := hmirrors.posted_eq
  unfold PacketRing.perform PacketLists.perform nextUnposted?
  cases hwaiting : lists.waiting with
  | nil =>
      rw [hwaiting, List.length_nil] at hposted
      rw [if_neg (by omega)]
      exact ⟨rfl, hmirrors⟩
  | cons entry rest =>
      rw [hwaiting, List.length_cons] at hposted
      rw [if_pos (by omega)]
      exact ⟨rfl, hmirrors.admitNext state hwaiting⟩

theorem perform_release (completion : Completion) :
    (ring.perform (.release completion)).1 = (lists.perform (.release completion)).1 ∧
      (ring.perform (.release completion)).2.Mirrors (lists.perform (.release completion)).2 := by
  have hadmitted := hmirrors.admitted_eq
  unfold PacketRing.perform PacketLists.perform oldestInFlight?
  cases hinFlight : lists.inFlight with
  | nil =>
      rw [hinFlight, List.length_nil] at hadmitted
      rw [if_neg (by omega)]
      exact ⟨rfl, hmirrors⟩
  | cons entry rest =>
      rw [hinFlight, List.length_cons] at hadmitted
      rw [if_pos (by omega)]
      exact ⟨rfl, hmirrors.release completion hinFlight⟩

theorem perform_pop : (ring.perform .pop).1 = (lists.perform .pop).1 ∧
    (ring.perform .pop).2.Mirrors (lists.perform .pop).2 := by
  have hreleased := hmirrors.released_eq
  have hfirst := hmirrors.released
  have hconcluded := hmirrors.concluded
  unfold PacketRing.perform PacketLists.perform
  cases hhead : lists.released with
  | nil =>
      have hpop : ring.pop? = none := if_pos (by rw [hreleased, hhead]; rfl)
      rw [hpop]
      exact ⟨rfl, hmirrors⟩
  | cons entry rest =>
      rw [hhead] at hreleased hfirst hconcluded
      rw [List.length_cons] at hreleased
      obtain ⟨completion, hstate⟩ := hconcluded entry List.mem_cons_self
      obtain ⟨packet, _, cancelled⟩ := entry
      obtain rfl := hstate
      have hpop : ring.pop? = some (⟨packet, completion⟩, _) := pop?_eq_some_iff.mpr
        ⟨by omega, congrArg RingSlot.state hfirst.1, congrArg RingSlot.packet hfirst.1, rfl⟩
      rw [hpop]
      exact ⟨rfl, hmirrors.pop hpop hhead⟩

/-- A ring and its lists give the same answer, and stay alike. -/
theorem perform (operation : RingOperation P) :
    (ring.perform operation).1 = (lists.perform operation).1 ∧
      (ring.perform operation).2.Mirrors (lists.perform operation).2 := by
  cases operation with
  | post packet => exact hmirrors.perform_post packet
  | dispatch state => exact hmirrors.perform_dispatch state
  | release completion => exact hmirrors.perform_release completion
  | cancel =>
      obtain ⟨hcount, hnext⟩ := hmirrors.cancelUnposted
      exact ⟨congrArg RingAnswer.cancelled hcount, hnext⟩
  | pop => exact hmirrors.perform_pop

theorem performAll (operations : List (RingOperation P)) :
    (performAll PacketRing.perform ring operations).1 =
        (performAll PacketLists.perform lists operations).1 ∧
      (performAll PacketRing.perform ring operations).2.Mirrors
        (performAll PacketLists.perform lists operations).2 := by
  induction operations generalizing ring lists with
  | nil => exact ⟨rfl, hmirrors⟩
  | cons operation rest ih =>
      obtain ⟨hanswer, hnext⟩ := hmirrors.perform operation
      obtain ⟨hanswers, hlast⟩ := ih hnext
      exact ⟨List.cons_eq_cons.mpr ⟨hanswer, hanswers⟩, hlast⟩

end Mirrors

end PacketRing

end TransmitQueue
