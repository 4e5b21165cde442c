import Mathlib.Data.List.Nodup
import Mathlib.Data.List.Perm.Lattice
import PatternEngine.Proofs.Engine.Handles
/-!
# The history of a handle table

What has been asked of a table and what came of it is its history, a list of events with the newest
first. The history alone tells what is found under a handle (`Holds`), and which of the handles that
can be given out again is next (`LastFreed`). A table that starts out empty never comes to disagree
with its history (`agrees_history`), so that every answer of a table can be read off from what
happened before (`finite_map_of_history`).
-/
namespace PatternEngine.HandleTable

variable {α : Type}

/-- Something that a table was asked for, with the answer. -/
inductive Event (α : Type) where
  /-- a value was to be kept, and this is its handle, unless there was none left -/
  | inserted (value : α) (handle : Option Handle)
  | found (handle : Handle) (value : Option α)
  | removed (handle : Handle) (value : Option α)

/-- Something that a table is asked for. -/
inductive Request (α : Type) where
  | insert (value : α)
  | get (handle : Handle)
  | remove (handle : Handle)

/-- What comes of a request, and the table that it leaves. -/
def Request.run (t : HandleTable α) : Request α → Event α × HandleTable α
  | .insert value =>
    match t.insert value with
    | some (handle, t') => (.inserted value (some handle), t')
    | none => (.inserted value none, t)
  | .get handle => (.found handle (t.get? handle), t)
  | .remove handle =>
    match t.remove handle with
    | some (value, t') => (.removed handle (some value), t')
    | none => (.removed handle none, t)

/-- The history of a table that is asked for one thing after the other, and what it has become. -/
def history (t : HandleTable α) (requests : List (Request α)) : List (Event α) × HandleTable α :=
  requests.foldl (fun (events, t) request =>
    let (event, t) := request.run t
    (event :: events, t)) ([], t)

/-! ## What a history tells -/

/-- The event gives out a handle. -/
def Event.Gives (handle : Handle) : Event α → Prop
  | .inserted _ given => given = some handle
  | _ => False

/-- The event gives out a handle, or asks for the removal of what is under it. -/
def Event.Touches (handle : Handle) : Event α → Prop
  | .inserted _ given => given = some handle
  | .found _ _ => False
  | .removed other _ => other = handle

/-- The value was the last that got the handle, and nobody has asked for its removal since. -/
def Holds (events : List (Event α)) (handle : Handle) (value : α) : Prop :=
  ∃ later earlier, events = later ++ .inserted value (some handle) :: earlier ∧
    ∀ event ∈ later, ¬event.Touches handle

/-- The handle has been freed, and not been given out since. -/
def Freed (events : List (Event α)) (handle : Handle) : Prop :=
  ∃ later value earlier, events = later ++ .removed handle (some value) :: earlier ∧
    ∀ event ∈ later, ¬event.Gives handle

/-- Of all handles that have been freed and not been given out since, this is the last to be
freed. -/
def LastFreed (events : List (Event α)) (handle : Handle) : Prop :=
  ∃ later value earlier, events = later ++ .removed handle (some value) :: earlier ∧
    (∀ event ∈ later, ¬event.Gives handle) ∧ ∀ other, ¬Freed later other

/-- The largest number that has been given out, or zero. -/
def largest : List (Event α) → Nat
  | [] => 0
  | .inserted _ (some handle) :: events => max handle.number (largest events)
  | _ :: events => largest events

section

variable {events : List (Event α)} {event : Event α} {handle : Handle} {value : α}

theorem holds_cons : Holds (event :: events) handle value ↔
    event = .inserted value (some handle) ∨ ¬event.Touches handle ∧ Holds events handle value := by
  constructor
  · rintro ⟨_ | ⟨first, later⟩, earlier, heq, hlater⟩
    · cases heq
      exact .inl rfl
    · cases heq
      rw [List.forall_mem_cons] at hlater
      exact .inr ⟨hlater.1, later, earlier, rfl, hlater.2⟩
  · rintro (rfl | ⟨htouches, later, earlier, rfl, hlater⟩)
    · exact ⟨[], events, rfl, by simp⟩
    · exact ⟨event :: later, earlier, rfl, List.forall_mem_cons.2 ⟨htouches, hlater⟩⟩

theorem freed_cons : Freed (event :: events) handle ↔
    (∃ value, event = .removed handle (some value)) ∨
      ¬event.Gives handle ∧ Freed events handle := by
  constructor
  · rintro ⟨_ | ⟨first, later⟩, value, earlier, heq, hlater⟩
    · cases heq
      exact .inl ⟨value, rfl⟩
    · cases heq
      rw [List.forall_mem_cons] at hlater
      exact .inr ⟨hlater.1, later, value, earlier, rfl, hlater.2⟩
  · rintro (⟨value, rfl⟩ | ⟨hgives, later, value, earlier, rfl, hlater⟩)
    · exact ⟨[], value, events, rfl, by simp⟩
    · exact ⟨event :: later, value, earlier, rfl, List.forall_mem_cons.2 ⟨hgives, hlater⟩⟩

theorem not_holds_nil : ¬Holds [] handle value := by
  rintro ⟨later, earlier, heq, -⟩
  simp at heq

theorem not_freed_nil : ¬Freed ([] : List (Event α)) handle := by
  rintro ⟨later, value, earlier, heq, -⟩
  simp at heq

end

/-! ## Tables that agree with a history -/

/-- The handles that can be given out again, in the order in which this will happen, are those that
have been freed and not been given out since: when one of them was freed, those in front of it had
yet to be freed. -/
def InOrder (events : List (Event α)) (free : List Handle) : Prop :=
  ∀ newer handle older, free = newer ++ handle :: older →
    ∃ later value earlier, events = later ++ .removed handle (some value) :: earlier ∧
      (∀ event ∈ later, ¬event.Gives handle) ∧ ∀ other, Freed later other ↔ other ∈ newer

/-- A table with this limit that is as its history tells. -/
structure Agrees (limit : Nat) (events : List (Event α)) (t : HandleTable α) : Prop where
  exact : t.Exact
  limit : t.limit = limit
  get? : ∀ handle value, t.get? handle = some value ↔ Holds events handle value
  free : ∀ handle, handle ∈ t.free ↔ Freed events handle
  order : InOrder events t.free
  length : t.entries.length = largest events

theorem agrees_empty (limit : Nat) : ({ limit } : HandleTable α).Agrees limit [] where
  exact := exact_empty
  limit := rfl
  get? handle value := by simp [HandleTable.get?, not_holds_nil]
  free handle := by simp [not_freed_nil]
  order newer handle older h := by simp at h
  length := rfl

section

variable {limit : Nat} {events : List (Event α)} {t t' : HandleTable α} {handle : Handle} {v : α}

/-- A handle that is given out is the first of those to be given out again, or a new one. -/
theorem insert_cases (h : t.insert v = some (handle, t')) : t'.limit = t.limit ∧
    (t.free = handle :: t'.free ∧ t'.entries.length = t.entries.length ∨
      t.free = [] ∧ t'.free = [] ∧ handle.number = t.entries.length + 1 ∧
        t'.entries.length = t.entries.length + 1) := by
  unfold HandleTable.insert at h
  split at h
  · rename_i first free hfree
    cases h
    exact ⟨rfl, .inl ⟨hfree, by simp⟩⟩
  · rename_i hfree
    dsimp only at h
    split at h
    · cases h
      exact ⟨rfl, .inr ⟨hfree, hfree, rfl, by simp⟩⟩
    · cases h

/-- A handle that is freed is the first to be given out again. -/
theorem remove_cases (h : t.remove handle = some (v, t')) : t'.limit = t.limit ∧
    t'.free = handle :: t.free ∧ t'.entries.length = t.entries.length := by
  unfold HandleTable.remove at h
  split at h
  · cases h
    exact ⟨rfl, rfl, by simp⟩
  · cases h

/-- An event that neither gives out a handle nor frees one changes nothing of what is told. -/
theorem Agrees.still (ht : t.Agrees limit events) {event : Event α}
    (hgives : ∀ handle, ¬event.Gives handle)
    (hremoved : ∀ handle value, event ≠ .removed handle (some value))
    (hholds : ∀ handle value, Holds (event :: events) handle value ↔ Holds events handle value)
    (hlargest : largest (event :: events) = largest events) : t.Agrees limit (event :: events) where
  exact := ht.exact
  limit := ht.limit
  get? handle value := (ht.get? handle value).trans (hholds handle value).symm
  free handle := by
    rw [ht.free, freed_cons]
    simp [hgives handle, hremoved handle]
  order newer handle older h := by
    obtain ⟨later, value, earlier, rfl, hlater, hfreed⟩ := ht.order newer handle older h
    refine ⟨event :: later, value, earlier, rfl, List.forall_mem_cons.2 ⟨hgives handle, hlater⟩,
      fun other => ?_⟩
    rw [freed_cons, ← hfreed]
    simp [hgives other, hremoved other]
  length := by rw [hlargest, ht.length]

/-- A value has been put in. Its handle is not waiting to be given out any more. -/
theorem Agrees.inserted (ht : t.Agrees limit events) (h : t.insert v = some (handle, t')) :
    t'.Agrees limit (.inserted v (some handle) :: events) := by
  obtain ⟨-, -, hget, hexact⟩ := ht.exact.insert h
  obtain ⟨hlimit, hcases⟩ := insert_cases h
  have hgives : ∀ other, (Event.inserted v (some handle)).Gives other ↔ handle = other :=
    fun other => by simp [Event.Gives]
  have hfreed : ∀ (later : List (Event α)) other,
      Freed (.inserted v (some handle) :: later) other ↔ handle ≠ other ∧ Freed later other :=
    fun later other => by simp [freed_cons, hgives]
  refine ⟨hexact, hlimit.trans ht.limit, ?_, ?_, ?_, ?_⟩
  · intro other value
    rw [hget, holds_cons]
    by_cases ho : other = handle
    · subst ho
      simp [Event.Touches]
    · have hne : handle ≠ other := Ne.symm ho
      simp [ho, hne, Event.Touches, ht.get?]
  · intro other
    rw [hfreed, ← ht.free]
    rcases hcases with ⟨hfree, -⟩ | ⟨hfree, hfree', -⟩
    · have hnodup := ht.exact.nodup
      rw [hfree, List.nodup_cons] at hnodup
      rw [hfree, List.mem_cons]
      constructor
      · exact fun hm => ⟨fun heq => hnodup.1 (heq ▸ hm), .inr hm⟩
      · rintro ⟨hne, rfl | hm⟩
        · exact absurd rfl hne
        · exact hm
    · simp [hfree, hfree']
  · intro newer other older heq
    rcases hcases with ⟨hfree, -⟩ | ⟨-, hfree', -⟩
    · rw [heq, ← List.cons_append] at hfree
      have hnodup := ht.exact.nodup
      rw [hfree, List.cons_append, List.nodup_cons, List.mem_append, List.mem_cons, not_or,
        not_or] at hnodup
      obtain ⟨hnewer, hother, -⟩ := hnodup.1
      obtain ⟨later, value, earlier, rfl, hlater, hlaterFreed⟩ := ht.order _ _ _ hfree
      refine ⟨_ :: later, value, earlier, rfl,
        List.forall_mem_cons.2 ⟨by rwa [hgives], hlater⟩, fun third => ?_⟩
      rw [hfreed, hlaterFreed, List.mem_cons]
      constructor
      · rintro ⟨hne, rfl | hm⟩
        · exact absurd rfl hne
        · exact hm
      · exact fun hm => ⟨fun heq => hnewer (heq ▸ hm), .inr hm⟩
    · rw [hfree'] at heq
      simp at heq
  · have hlength := ht.length
    rw [largest]
    rcases hcases with ⟨hfree, hsame⟩ | ⟨-, -, hnumber, hmore⟩
    · have hle := ((ht.exact.gaps handle).1 (by simp [hfree])).2.1
      omega
    · omega

/-- A value has been taken out. Its handle is the next to be given out. -/
theorem Agrees.removed (ht : t.Agrees limit events) (h : t.remove handle = some (v, t')) :
    t'.Agrees limit (.removed handle (some v) :: events) := by
  obtain ⟨-, hget, hexact⟩ := ht.exact.remove h
  obtain ⟨hlimit, hfree, hlength⟩ := remove_cases h
  have hfreed : ∀ (later : List (Event α)) other,
      Freed (.removed handle (some v) :: later) other ↔ other = handle ∨ Freed later other :=
    fun later other => by simp [freed_cons, Event.Gives, eq_comm]
  refine ⟨hexact, hlimit.trans ht.limit, ?_, ?_, ?_, ?_⟩
  · intro other value
    rw [hget, holds_cons]
    by_cases ho : other = handle
    · subst ho
      simp [Event.Touches]
    · have hne : handle ≠ other := Ne.symm ho
      simp [ho, hne, Event.Touches, ht.get?]
  · intro other
    rw [hfreed, hfree, List.mem_cons, ht.free]
  · intro newer other older heq
    rw [hfree] at heq
    rcases List.cons_eq_append_iff.1 heq with ⟨rfl, hrest⟩ | ⟨newer, rfl, hrest⟩
    · cases hrest
      exact ⟨[], v, events, rfl, by simp, fun third => by simp [not_freed_nil]⟩
    · obtain ⟨later, value, earlier, rfl, hlater, hlaterFreed⟩ := ht.order _ _ _ hrest
      refine ⟨_ :: later, value, earlier, rfl,
        List.forall_mem_cons.2 ⟨fun hgives => hgives, hlater⟩, fun third => ?_⟩
      rw [hfreed, hlaterFreed, List.mem_cons]
  · rw [hlength, ht.length]
    rfl

/-- A request keeps a table and its history in agreement. -/
theorem Agrees.run (ht : t.Agrees limit events) (request : Request α) :
    (request.run t).2.Agrees limit ((request.run t).1 :: events) := by
  cases request with
  | insert value =>
    cases hi : t.insert value with
    | none =>
      have hrun : (Request.insert value).run t = (.inserted value none, t) := by
        simp only [Request.run, hi]
      rw [hrun]
      exact ht.still (by simp [Event.Gives]) (by simp) (by simp [holds_cons, Event.Touches]) rfl
    | some inserted =>
      obtain ⟨handle, t'⟩ := inserted
      have hrun : (Request.insert value).run t = (.inserted value (some handle), t') := by
        simp only [Request.run, hi]
      rw [hrun]
      exact ht.inserted hi
  | get handle =>
    exact ht.still (by simp [Request.run, Event.Gives]) (by simp [Request.run])
      (by simp [Request.run, holds_cons, Event.Touches]) rfl
  | remove handle =>
    cases hr : t.remove handle with
    | none =>
      have hrun : (Request.remove handle).run t = (.removed handle none, t) := by
        simp only [Request.run, hr]
      rw [hrun]
      -- nothing is under the handle, so it does not matter that its removal was asked for
      have hnone := remove_eq_none_iff.1 hr
      refine ht.still (by simp [Event.Gives]) (by simp) (fun other value => ?_) rfl
      rw [holds_cons]
      constructor
      · rintro (h | ⟨-, h⟩)
        · cases h
        · exact h
      · intro h
        refine .inr ⟨?_, h⟩
        rintro rfl
        have hv := (ht.get? _ _).2 h
        rw [hnone] at hv
        cases hv
    | some removed =>
      obtain ⟨value, t'⟩ := removed
      have hrun : (Request.remove handle).run t = (.removed handle (some value), t') := by
        simp only [Request.run, hr]
      rw [hrun]
      exact ht.removed hr

/-- However often something is asked for, a table agrees with its history. -/
theorem agrees_history (limit : Nat) (requests : List (Request α)) :
    (history ({ limit } : HandleTable α) requests).2.Agrees limit
      (history { limit } requests).1 := by
  have hrun : ∀ (requests : List (Request α)) (past : List (Event α) × HandleTable α),
      past.2.Agrees limit past.1 →
      let now := requests.foldl (fun (events, t) request =>
        let (event, t) := request.run t
        (event :: events, t)) past
      now.2.Agrees limit now.1 := by
    intro requests
    induction requests with
    | nil => exact fun _ ht => ht
    | cons request requests ih => exact fun past ht => ih _ (ht.run request)
  exact hrun requests ([], _) (agrees_empty limit)

/-- When a value is put in, its handle is the one that was freed last, or else a new one, and
nothing is under it. -/
theorem Agrees.insert_told (ht : t.Agrees limit events) (h : t.insert v = some (handle, t')) :
    handle.number ≠ 0 ∧ (∀ kept, ¬Holds events handle kept) ∧
    (LastFreed events handle ∨
      (∀ other, ¬Freed events other) ∧ handle.number = largest events + 1) ∧
    ∀ other, t'.get? other = if other = handle then some v else t.get? other := by
  obtain ⟨hnone, hne, hget, -⟩ := ht.exact.insert h
  refine ⟨hne, ?_, ?_, hget⟩
  · intro kept hkept
    rw [← ht.get?, hnone] at hkept
    cases hkept
  · rcases (insert_cases h).2 with ⟨hfree, -⟩ | ⟨hfree, -, hnumber, -⟩
    · obtain ⟨later, v, earlier, heq, hlater, hfreed⟩ := ht.order [] handle t'.free hfree
      exact .inl ⟨later, v, earlier, heq, hlater, fun other => by simp [hfreed]⟩
    · refine .inr ⟨fun other => ?_, by rw [hnumber, ht.length]⟩
      rw [← ht.free, hfree]
      exact List.not_mem_nil

/-- What can be taken out is what is under the handle. -/
theorem Agrees.remove_iff (ht : t.Agrees limit events) :
    (∃ t', t.remove handle = some (v, t')) ↔ Holds events handle v := by
  rw [← ht.get?]
  constructor
  · rintro ⟨t', hremove⟩
    exact (ht.exact.remove hremove).1
  · intro hget
    cases hremove : t.remove handle with
    | none =>
      rw [remove_eq_none_iff.1 hremove] at hget
      cases hget
    | some removed =>
      obtain ⟨other, t'⟩ := removed
      have hother := (ht.exact.remove hremove).1
      cases hget.symm.trans hother
      exact ⟨t', rfl⟩

end

/-! ## The number of values -/

/-- The handles of the values and the free handles make up all that there are places for. -/
theorem Exact.size_eq {t : HandleTable α} (ht : t.Exact) : ∃ live : List Handle, live.Nodup ∧
    (∀ handle, handle ∈ live ↔ ∃ v, t.get? handle = some v) ∧
    t.entries.length = live.length + t.free.length := by
  let places : List Handle := (List.range t.entries.length).map fun i => ⟨i + 1⟩
  have hplaces : ∀ handle, handle ∈ places ↔
      handle.number ≠ 0 ∧ handle.number ≤ t.entries.length := by
    intro handle
    simp only [places, List.mem_map, List.mem_range]
    constructor
    · rintro ⟨i, hi, rfl⟩
      exact ⟨Nat.succ_ne_zero i, hi⟩
    · rintro ⟨hne, hle⟩
      have hnumber : handle.number - 1 + 1 = handle.number := by omega
      exact ⟨handle.number - 1, by omega, congrArg Handle.mk hnumber⟩
  have hnodup : places.Nodup :=
    List.nodup_range.map fun i j h => Nat.succ.inj (congrArg Handle.number h)
  have hfree : t.free.Perm (places.filter fun handle => !(t.get? handle).isSome) := by
    rw [List.perm_ext_iff_of_nodup ht.nodup (hnodup.filter _)]
    intro handle
    simp [ht.gaps, hplaces, and_assoc]
  refine ⟨places.filter fun handle => (t.get? handle).isSome, hnodup.filter _, ?_, ?_⟩
  · intro handle
    rw [List.mem_filter, hplaces, Option.isSome_iff_exists]
    constructor
    · exact fun h => h.2
    · rintro ⟨v, hv⟩
      exact ⟨number_of_get? hv, v, hv⟩
  · have hlength : places.length = t.entries.length := by simp [places]
    rw [hfree.length_eq, ← hlength]
    exact List.length_eq_length_filter_add _

/-! ## Answers -/

/-- A table that starts out empty answers as its history tells. A value is found under the handle
that it got last, until its removal is asked for. It gets the handle that was freed last, or else a
new one, never one under which something is kept, and there is no handle only when none is free and
all numbers have been given out. Nothing changes under any other handle. -/
theorem finite_map_of_history (limit : Nat) (requests : List (Request α)) :
    let events := (history ({ limit } : HandleTable α) requests).1
    let t := (history ({ limit } : HandleTable α) requests).2
    (∀ handle value, t.get? handle = some value ↔ Holds events handle value) ∧
    (∀ value, t.entries.length < limit → ∃ handle t', t.insert value = some (handle, t') ∧
      handle.number ≠ 0 ∧ (∀ kept, ¬Holds events handle kept) ∧
      (LastFreed events handle ∨
        (∀ other, ¬Freed events other) ∧ handle.number = largest events + 1) ∧
      ∀ other, t'.get? other = if other = handle then some value else t.get? other) ∧
    (∀ handle value, (∃ t', t.remove handle = some (value, t')) ↔ Holds events handle value) ∧
    (∀ handle value t', t.remove handle = some (value, t') → t'.remove handle = none ∧
      ∀ other, t'.get? other = if other = handle then none else t.get? other) ∧
    t.free.length ≤ t.entries.length ∧
    (∃ live : List Handle, live.Nodup ∧
      (∀ handle, handle ∈ live ↔ ∃ value, Holds events handle value) ∧ t.size = live.length) ∧
    ∀ first rest, t.free = first :: rest →
      ∃ index, first.index? = some index ∧ index < t.entries.length := by
  intro events t
  have ht : t.Agrees limit events := agrees_history limit requests
  obtain ⟨live, hnodup, hlive, hsum⟩ := ht.exact.size_eq
  refine ⟨ht.get?, ?_, ?_, ?_, by omega, ⟨live, hnodup, ?_, ?_⟩, ?_⟩
  · intro value hroom
    have hfull : t.insert value ≠ none := by
      rw [Ne, insert_none_iff, Full, ht.limit]
      omega
    obtain ⟨⟨handle, t'⟩, hinsert⟩ := Option.ne_none_iff_exists'.1 hfull
    exact ⟨handle, t', hinsert, ht.insert_told hinsert⟩
  · exact fun handle value => ht.remove_iff
  · intro handle value t' hremove
    have hget := (ht.exact.remove hremove).2.1
    exact ⟨remove_eq_none_iff.2 (by rw [hget, if_pos rfl]), hget⟩
  · exact fun handle => (hlive handle).trans (exists_congr fun value => ht.get? handle value)
  · unfold size
    omega
  · intro first rest hfree
    obtain ⟨hne, hle, -⟩ := (ht.exact.gaps first).1 (by simp [hfree])
    exact ⟨_, index?_eq hne, by omega⟩

/-- What is removed twice is gone after the first time, and its handle is given out again once. -/
example :
    let requests : List (Request Nat) :=
      [.insert 7, .insert 8, .remove ⟨1⟩, .remove ⟨1⟩, .insert 9, .get ⟨1⟩, .insert 10]
    (history { limit := 3 } requests).1 =
      [.inserted 10 (some ⟨3⟩), .found ⟨1⟩ (some 9), .inserted 9 (some ⟨1⟩), .removed ⟨1⟩ none,
        .removed ⟨1⟩ (some 7), .inserted 8 (some ⟨2⟩), .inserted 7 (some ⟨1⟩)] := rfl

end PatternEngine.HandleTable
