import PatternEngine.Proofs.Engine.Faults
import PatternEngine.Proofs.Engine.Results
import PatternEngine.Proofs.Engine.Watched
/-!
# What the collector is asked

Nothing but the limit on memory makes an engine turn to the collector of its module. A count comes
before a decision (`Checked`), a limit is set by two collections and a count (`Requested`), and all
other calls leave the collector alone (`Call.Asks`). So over a whole run everything that the
collector is asked follows from the limit, and the limit is the one that was last accepted
(`collector_follows_limit`).
-/
namespace PatternEngine

open PatternEngine.Action

variable {σ : Type}

namespace Engine

/-! ## Exchanges -/

/-- The exchange when the collector is called with an option. -/
def asked (option : String) (reply : Reply) : Exchange := ⟨[.str (text option)], reply⟩

/-- The fault of a collector that raises a message. -/
def collectorRaised (message : Bytes) : Fault := .raised (text "collectgarbage") message

/-- A collection, and what it comes to. -/
inductive Collected : List Exchange → Except Fault Unit → Prop
  | done (values : List Value) : Collected [asked "collect" (.returned values)] (.ok ())
  | raised (message : Bytes) :
      Collected [asked "collect" (.raised message)] (.error (collectorRaised message))

/-- A count of the memory in use, in kilobytes. -/
inductive Counted : List Exchange → Except Fault Nat → Prop
  | told {values : List Value} {kilobytes : Nat}
      (reading : values.head?.bind reading? = some kilobytes) :
      Counted [asked "count" (.returned values)] (.ok kilobytes)
  | untold {values : List Value} (reading : values.head?.bind reading? = none) :
      Counted [asked "count" (.returned values)]
        (.error (.contract (text "collectgarbage") (text "count did not return a number")))
  | raised (message : Bytes) :
      Counted [asked "count" (.raised message)] (.error (collectorRaised message))

theorem quotient_pos (x : Decimal.Double) : 0 < x.quotient.2 := by
  unfold Decimal.Double.quotient
  split
  · exact Nat.one_pos
  · exact Nat.pow_pos (by decide)

/-- A count that is a whole number is read as that number. -/
theorem reading_whole {x : Decimal.Double} {n : Nat} (h : x.toInt? = some (n : Int)) :
    reading? (.float x) = some n := by
  have hpos := quotient_pos x
  unfold Decimal.Double.toInt? at h
  unfold reading? Decimal.Double.ceilNat Decimal.Double.isNaN
  split at h
  · cases h
  · rename_i hfinite
    have hbiased : (x.biased == 2047) = false := by
      simpa [Decimal.Double.isFinite] using hfinite
    rcases hquotient : x.quotient with ⟨num, den⟩
    rw [hquotient] at h hpos
    dsimp only at h hpos ⊢
    split at h
    · cases h
    · rename_i hwhole
      obtain ⟨q, rfl⟩ : den ∣ num := Nat.dvd_of_mod_eq_zero (by simpa using hwhole)
      have hup : (den * q + (den - 1)) / den = q := by
        rw [Nat.mul_add_div hpos, Nat.div_eq_of_lt (by omega), Nat.add_zero]
      rw [Nat.mul_div_cancel_left q hpos] at h
      obtain ⟨hrange, hn⟩ := Option.ite_none_right_eq_some.1 h
      have hn := Option.some.inj hn
      rw [hbiased, hquotient, if_neg hfinite]
      dsimp only
      rw [hup]
      cases hnegative : x.isNegative with
      | true =>
        -- of the numbers with a sign only zero is no less than zero
        rw [hnegative, if_pos rfl] at hn
        have hzero : n = 0 := by omega
        rw [hzero]
        rfl
      | false =>
        rw [hnegative, if_neg Bool.false_ne_true] at hn hrange
        have hq : q = n := by omega
        have hsmall : q ≤ Nat.pow 2 64 - 1 := by
          have hmost : (q : Int) ≤ Nat.pow 2 63 - 1 := hrange.2
          have hless : Nat.pow 2 63 ≤ Nat.pow 2 64 := by decide
          omega
        rw [← hq, Bool.false_and, Bool.or_self, if_neg Bool.false_ne_true, Nat.min_eq_left hsmall]

/-- A check of the memory in use: nothing without a ceiling, and otherwise a count, and a collection
if more is in use than the ceiling allows. -/
inductive Checked (ceiling : Nat) : List Exchange → Except Fault Unit → Prop
  | off (unlimited : ceiling = 0) : Checked ceiling [] (.ok ())
  | uncounted {counted : List Exchange} {fault : Fault} (limited : 0 < ceiling)
      (count : Counted counted (.error fault)) : Checked ceiling counted (.error fault)
  | within {counted : List Exchange} {kilobytes : Nat} (limited : 0 < ceiling)
      (count : Counted counted (.ok kilobytes)) (enough : kilobytes ≤ ceiling) :
      Checked ceiling counted (.ok ())
  | above {counted collected : List Exchange} {kilobytes : Nat} {result : Except Fault Unit}
      (limited : 0 < ceiling) (count : Counted counted (.ok kilobytes))
      (exceeded : ceiling < kilobytes) (collection : Collected collected result) :
      Checked ceiling (counted ++ collected) result

/-- A request for a limit. Unless it is too small there are two collections and a count, up to the
first of them that ends in a fault. -/
inductive Requested (megabytes : Nat) : List Exchange → Except Fault Usage → Prop
  | tooSmall (low : 1 ≤ megabytes) (high : megabytes ≤ 7) :
      Requested megabytes [] (.error (.limitTooSmall megabytes 8))
  | first {made : List Exchange} {fault : Fault} (allowed : megabytes = 0 ∨ 8 ≤ megabytes)
      (collection : Collected made (.error fault)) : Requested megabytes made (.error fault)
  | second {made later : List Exchange} {fault : Fault} (allowed : megabytes = 0 ∨ 8 ≤ megabytes)
      (collection : Collected made (.ok ())) (another : Collected later (.error fault)) :
      Requested megabytes (made ++ later) (.error fault)
  | uncounted {made later counted : List Exchange} {fault : Fault}
      (allowed : megabytes = 0 ∨ 8 ≤ megabytes) (collection : Collected made (.ok ()))
      (another : Collected later (.ok ())) (count : Counted counted (.error fault)) :
      Requested megabytes (made ++ later ++ counted) (.error fault)
  | accepted {made later counted : List Exchange} {kilobytes : Nat}
      (allowed : megabytes = 0 ∨ 8 ≤ megabytes) (collection : Collected made (.ok ()))
      (another : Collected later (.ok ())) (count : Counted counted (.ok kilobytes)) :
      Requested megabytes (made ++ later ++ counted) (.ok ⟨megabytes, kilobytes⟩)

/-! ## Actions that turn to the collector -/

section
variable {α β : Type} {a : Action σ α} {a' : Action (σ × List Exchange) α} {f : α → Action σ β}
  {f' : α → Action (σ × List Exchange) β} {files : FileSystem} {e : Engine σ}
  {P : List Exchange → Except Fault α → Prop} {R : List Exchange → Except Fault β → Prop}

/-- An action comes to the same when the module is watched, and what it makes of the collector is
added to the log. -/
def Makes (a : Action σ α) (a' : Action (σ × List Exchange) α) (e : Engine σ)
    (P : List Exchange → Except Fault α → Prop) : Prop :=
  ∀ log, ∃ made, a'.run (e.watched log) = ((a.run e).1, (a.run e).2.watched (log ++ made)) ∧
    P made (a.run e).1

theorem Mirrors.makes (h : Mirrors a a') (e : Engine σ) :
    Makes a a' e fun made result => made = [] ∧ result = (a.run e).1 :=
  fun log => ⟨[], by rw [h e log, List.append_nil], rfl, rfl⟩

theorem Makes.get_bind {g : Engine σ → Action σ β} {g' : Engine (σ × List Exchange) → Action _ β}
    (h : ∀ log, Makes (g e) (g' (e.watched log)) e R) : Makes (get >>= g) (get >>= g') e R := by
  intro log
  rw [run_bind_ok (run_get _), run_bind_ok (run_get _)]
  exact h log log

/-- What an action makes comes before what follows it makes, unless it ends in a fault. -/
theorem Makes.bind (ha : Makes a a' e P)
    (herror : ∀ made fault, P made (.error fault) → R made (.error fault))
    (hf : ∀ x e₁, a.run e = (.ok x, e₁) →
      Makes (f x) (f' x) e₁ fun later result => ∀ made, P made (.ok x) → R (made ++ later) result) :
    Makes (a >>= f) (a' >>= f') e R := by
  intro log
  obtain ⟨made, hrun, hP⟩ := ha log
  rw [run_bind, run_bind, hrun]
  rcases hr : a.run e with ⟨fault | x, e₁⟩
  · rw [hr] at hP
    exact ⟨made, rfl, herror made fault hP⟩
  · rw [hr] at hP
    obtain ⟨later, hlater, hR⟩ := hf x e₁ hr (log ++ made)
    refine ⟨made ++ later, ?_, hR made hP⟩
    rw [← List.append_assoc]
    exact hlater

theorem Makes.imp {Q : List Exchange → Except Fault α → Prop} (h : Makes a a' e P)
    (hQ : ∀ made, P made (a.run e).1 → Q made (a.run e).1) : Makes a a' e Q := by
  intro log
  obtain ⟨made, hrun, hP⟩ := h log
  exact ⟨made, hrun, hQ made hP⟩

theorem call_logged (entry : EntryPoint σ) (name : String) (files : FileSystem)
    (arguments : List Value) (e : Engine σ) :
    Makes (call entry name files arguments) (call entry.logged name files arguments) e
      fun made result => ∃ reply, made = [⟨arguments, reply⟩] ∧ result = match reply with
        | .returned values => .ok values
        | .raised message => .error (.raised (text name) message) := by
  intro log
  unfold call
  rw [run_bind_ok (run_get _), run_bind_ok (run_get _)]
  unfold watched EntryPoint.logged
  dsimp only
  rcases entry files arguments e.state with ⟨values | message, state⟩
  · exact ⟨_, rfl, .returned values, rfl, rfl⟩
  · exact ⟨_, rfl, .raised message, rfl, rfl⟩

/-- What an action makes is all there is, if what follows it is mirrored. -/
theorem Makes.before (ha : Makes a a' e P) (hf : ∀ x, Mirrors (f x) (f' x)) :
    Makes (a >>= f) (a' >>= f') e fun made _ => P made (a.run e).1 := by
  intro log
  obtain ⟨made, hrun, hP⟩ := ha log
  refine ⟨made, ?_, hP⟩
  rw [run_bind, run_bind, hrun]
  rcases a.run e with ⟨fault | x, e₁⟩
  · rfl
  · exact hf x e₁ _

theorem collectorCall_makes (option : String) (e : Engine σ) :
    Makes (collectorCall files option) (collectorCall files option) e fun made result =>
      ∃ reply, made = [asked option reply] ∧ result = match reply with
        | .returned values => .ok values
        | .raised message => .error (collectorRaised message) :=
  .get_bind fun _ => call_logged e.slots.collector "collectgarbage" files _ e

theorem collect_makes (e : Engine σ) :
    Makes (collect files) (collect files) e Collected := by
  refine (collectorCall_makes "collect" e).bind ?_ ?_
  · rintro made fault ⟨values | message, rfl, hresult⟩
    · cases hresult
    · cases hresult
      exact .raised message
  · intro values e₁ _
    refine ((Mirrors.pure ()).makes e₁).imp ?_
    rintro later ⟨rfl, -⟩ made ⟨values' | message, rfl, hresult⟩
    · exact .done values'
    · cases hresult

theorem usage_makes (e : Engine σ) : Makes (usage files) (usage files) e Counted := by
  refine (collectorCall_makes "count" e).bind ?_ ?_
  · rintro made fault ⟨values | message, rfl, hresult⟩
    · cases hresult
    · cases hresult
      exact .raised message
  · intro values e₁ _
    have hcounted : ∀ made, (∃ reply, made = [asked "count" reply] ∧
        Except.ok values = match reply with
          | .returned values => .ok values
          | .raised message => .error (collectorRaised message)) →
        made = [asked "count" (.returned values)] := by
      rintro made ⟨values' | message, rfl, hresult⟩
      · cases hresult
        rfl
      · cases hresult
    cases hreading : values.head?.bind reading? with
    | none =>
      refine ((Mirrors.violation _ _).makes e₁).imp ?_
      rintro later ⟨rfl, -⟩ made hmade
      rw [hcounted made hmade]
      exact .untold hreading
    | some kilobytes =>
      refine ((Mirrors.pure kilobytes).makes e₁).imp ?_
      rintro later ⟨rfl, -⟩ made hmade
      rw [hcounted made hmade]
      exact .told hreading

/-- A check comes to a count and a collection, as far as the ceiling asks for them. -/
theorem govern_makes (files : FileSystem) (e : Engine σ) :
    Makes (govern files) (govern files) e (Checked e.limit.ceiling) := by
  refine .get_bind fun log => ?_
  have hlimit : (e.watched log).limit = e.limit := rfl
  rw [hlimit]
  dsimp only
  split
  · rename_i hoff
    refine ((Mirrors.pure ()).makes e).imp ?_
    rintro made ⟨rfl, -⟩
    exact .off hoff
  · rename_i hon
    have hlimited : 0 < e.limit.ceiling := Nat.pos_of_ne_zero hon
    refine (usage_makes e).bind (fun made fault hcount => .uncounted hlimited hcount) ?_
    intro kilobytes e₁ _
    split
    · rename_i habove
      exact (collect_makes e₁).imp fun later hcollected made hcount =>
        .above hlimited hcount habove hcollected
    · rename_i hwithin
      refine ((Mirrors.pure ()).makes e₁).imp ?_
      rintro later ⟨rfl, -⟩ made hcount
      rw [List.append_nil]
      exact .within hlimited hcount (Nat.le_of_not_lt hwithin)

theorem queryLimit_makes (files : FileSystem) (e : Engine σ) :
    Makes (queryLimit files) (queryLimit files) e fun made result =>
      ∃ count, Counted made count ∧ result = count.map (Usage.mk e.limit.megabytes) := by
  refine .get_bind fun log => (usage_makes e).bind ?_ ?_
  · exact fun made fault hcount => ⟨_, hcount, rfl⟩
  · intro kilobytes e₁ _
    refine ((Mirrors.pure _).makes e₁).imp ?_
    rintro later ⟨rfl, -⟩ made hcount
    rw [List.append_nil]
    exact ⟨_, hcount, rfl⟩

theorem setLimit_makes (files : FileSystem) (megabytes : Nat) (e : Engine σ) :
    Makes (setLimit files megabytes) (setLimit files megabytes) e (Requested megabytes) := by
  unfold setLimit
  dsimp only
  split
  · rename_i hsmall
    refine ((Mirrors.throw _).makes e).imp ?_
    rintro made ⟨rfl, -⟩
    rw [Bool.and_eq_true, bne_iff_ne, decide_eq_true_eq] at hsmall
    obtain ⟨hlow, hhigh⟩ := hsmall
    exact .tooSmall (Nat.pos_of_ne_zero hlow) (Nat.le_of_lt_succ hhigh)
  · rename_i hlarge
    have hallowed : megabytes = 0 ∨ 8 ≤ megabytes := by
      rw [Bool.and_eq_true, bne_iff_ne, decide_eq_true_eq, not_and_or, not_not,
        Nat.not_lt] at hlarge
      exact hlarge
    refine (collect_makes e).bind (fun made fault hfirst => .first hallowed hfirst) ?_
    intro _ e₁ _
    refine (collect_makes e₁).bind
      (fun later fault hsecond made hfirst => .second hallowed hfirst hsecond) ?_
    intro _ e₂ _
    refine (usage_makes e₂).bind ?_ ?_
    · intro counted fault hcount later hsecond made hfirst
      rw [← List.append_assoc]
      exact .uncounted hallowed hfirst hsecond hcount
    · intro kilobytes e₃ _
      refine (((Mirrors.modify fun _ _ => rfl).bind fun _ => .pure _).makes e₃).imp ?_
      rintro nothing ⟨rfl, -⟩ counted hcount later hsecond made hfirst
      rw [List.append_nil, ← List.append_assoc]
      exact .accepted hallowed hfirst hsecond hcount

/-- A limit and its ceiling, which is that much above the memory in use. -/
def Usage.limit (u : Usage) : MemoryLimit :=
  ⟨u.megabytes, if u.megabytes = 0 then 0 else u.kilobytes + 1024 * u.megabytes⟩

theorem setLimit_limit {megabytes : Nat} {u : Usage} {e' : Engine σ}
    (h : (setLimit files megabytes).run e = (.ok u, e')) : e'.limit = u.limit := by
  unfold setLimit at h
  dsimp only at h
  split at h
  · cases h
  · obtain ⟨_, e₁, -, h⟩ := run_bind_eq_ok.1 h
    obtain ⟨_, e₂, -, h⟩ := run_bind_eq_ok.1 h
    obtain ⟨kilobytes, e₃, -, h⟩ := run_bind_eq_ok.1 h
    cases h
    unfold Usage.limit
    rw [Nat.mul_comm 1024]

/-- A limit that cannot be set leaves everything as it is. -/
theorem atomic_setLimit (megabytes : Nat) : Atomic (setLimit files megabytes : Action σ _) := by
  unfold setLimit
  dsimp only
  split
  · exact (quiet_throw _).atomic
  · refine .bind quiet_collect fun _ => .bind quiet_collect fun _ =>
      .bind quiet_usage fun kilobytes => ?_
    intro e fault e' h
    cases h

/-! ## Matches -/

theorem matchInput_makes (files : FileSystem) (handle : Handle) (start : Int)
    (encoder input : Bytes) (e : Engine σ) :
    Makes (matchInput files handle start encoder input)
      (matchInput files handle start encoder input) e fun made _ =>
        Checked e.limit.ceiling made ((govern files).run e).1 :=
  (govern_makes files e).before fun _ => mirrors_dispatch _ _ _ _

theorem trace_makes (files : FileSystem) (handle : Handle) (start : Int)
    (style input : Bytes) (e : Engine σ) :
    Makes (trace files handle start style input) (trace files handle start style input)
      e fun made _ => Checked e.limit.ceiling made ((govern files).run e).1 := by
  refine (govern_makes files e).before fun _ => .get_bind fun e log => ?_
  have hpatterns : (e.watched log).patterns = e.patterns := rfl
  rw [hpatterns]
  split
  · exact .pure _
  · refine (mirrors_callMethod (fun _ => rfl) _ _ _).bind fun values => ?_
    split
    · refine (mirrors_flag _ _).bind fun known => ?_
      split
      · refine (mirrors_flag _ _).bind fun matched => ?_
        exact (mirrors_traceBytes _).bind fun bytes => .pure _
      · exact .pure _
    · exact .violation _ _

/-! ## Records -/

/-- The check that comes before a record: a record whose number is a multiple of 256 is preceded by
one, the others are not. -/
def CheckedBefore (ceiling number : Nat) (made : List Exchange) (result : Except Fault Unit) :
    Prop :=
  if 256 ∣ number then Checked ceiling made result else made = [] ∧ result = .ok ()

/-- The checks of records, of which so many others came before. With each record there is an
attempt at it, unless its check ends in a fault, and a fault ends the row. -/
inductive RecordChecks (ceiling : Nat) :
    (before : Nat) → List Exchange → (attempts : Nat) → Option Fault → Prop
  | done {before : Nat} : RecordChecks ceiling before [] 0 none
  | unchecked {before : Nat} {made : List Exchange} {fault : Fault}
      (check : CheckedBefore ceiling (before + 1) made (.error fault)) :
      RecordChecks ceiling before made 0 (some fault)
  | unmatched {before : Nat} {made : List Exchange} {fault : Fault}
      (check : CheckedBefore ceiling (before + 1) made (.ok ())) :
      RecordChecks ceiling before made 1 (some fault)
  | matched {before attempts : Nat} {made later : List Exchange} {fault : Option Fault}
      (check : CheckedBefore ceiling (before + 1) made (.ok ()))
      (rest : RecordChecks ceiling (before + 1) later attempts fault) :
      RecordChecks ceiling before (made ++ later) (attempts + 1) fault

theorem recordCheck_makes (number : Nat) (e : Engine σ) :
    Makes (recordCheck files number) (recordCheck files number) e
      (CheckedBefore e.limit.ceiling number) := by
  unfold recordCheck CheckedBefore
  by_cases hdue : 256 ∣ number
  · have hmod : number % governInterval = 0 := Nat.dvd_iff_mod_eq_zero.1 hdue
    rw [if_pos hmod, if_pos hmod]
    exact (govern_makes files e).imp fun made hcheck => by rwa [if_pos hdue]
  · have hnot : ¬number % governInterval = 0 := fun h => hdue (Nat.dvd_iff_mod_eq_zero.2 h)
    rw [if_neg hnot, if_neg hnot]
    exact ((Mirrors.pure ()).makes e).imp fun made hmade => by rwa [if_neg hdue]

theorem matchRecord_makes (files : FileSystem) (r : FileRequest) (number : Nat)
    (record : Bytes) (e : Engine σ) :
    Makes (matchRecord files r number record) (matchRecord files r number record) e fun made _ =>
      CheckedBefore e.limit.ceiling number made ((recordCheck files number).run e).1 := by
  rw [matchRecord_eq, matchRecord_eq]
  exact (recordCheck_makes number e).before fun _ => (mirrors_dispatch _ _ _ _).bind fun outcome =>
    .get_bind fun e log => .pure _

/-- Matching records comes to the same when the module is watched, with the checks that are due
before them. -/
theorem matchRecords_makes (files : FileSystem) (r : FileRequest) (records : List Bytes) :
    ∀ (tally : Tally) (e : Engine σ) (log : List Exchange), ∃ made,
      let run := matchRecords files r tally records e
      matchRecords files r tally records (e.watched log) = (run.1, run.2.watched (log ++ made)) ∧
      RecordChecks e.limit.ceiling tally.records made
        (recordAttempts files r tally.records records e).length (Call.faultOf run.1.1) := by
  induction records with
  | nil =>
    intro tally e log
    exact ⟨[], by rw [List.append_nil]; rfl, .done⟩
  | cons record records ih =>
    intro tally e log
    obtain ⟨made, hwatched, hcheck⟩ := matchRecord_makes files r (tally.records + 1) record e log
    have hrecord := matchRecord_run files r (tally.records + 1) record e
    rw [recordAttempts]
    rcases hchecked : (recordCheck files (tally.records + 1)).run e with ⟨fault | _, e₁⟩ <;>
      rw [hchecked] at hrecord hcheck <;> dsimp only at hrecord hcheck ⊢
    · refine ⟨made, ?_, ?_⟩
      · rw [matchRecords, matchRecords]
        dsimp only
        rw [hwatched, hrecord]
      · rw [matchRecords]
        dsimp only
        rw [hrecord]
        exact .unchecked hcheck
    · rcases hrun : (Attempt.mk e₁ files r.pattern 1 r.encoder record).run with
        ⟨fault | outcome, e₂⟩ <;> rw [hrun] at hrecord <;> dsimp only at hrecord ⊢
      · refine ⟨made, ?_, ?_⟩
        · rw [matchRecords, matchRecords]
          dsimp only
          rw [hwatched, hrecord]
        · rw [matchRecords]
          dsimp only
          rw [hrecord]
          exact .unmatched hcheck
      · have hsteady : Steady e e₂ := by
          have h : Steady e ((matchRecord files r (tally.records + 1) record).run e).2 :=
            matches_matchRecord r (tally.records + 1) record e
          rwa [hrecord] at h
        rw [hrecord] at hwatched
        obtain ⟨later, hlater, hrest⟩ :=
          ih (tally.add record (e₂.data outcome.data)) e₂ (log ++ made)
        rw [matchRecords_cons hrecord, matchRecords_cons hwatched]
        rw [hsteady.limit, Tally.records_add] at hrest
        refine ⟨made ++ later, ?_, .matched hcheck hrest⟩
        rw [← List.append_assoc]
        exact hlater

/-- The checks of a match with a file: one before all, and those that are due before its
records. -/
theorem matchFile_makes (e : Engine σ) (r : FileRequest) (world : World) (log : List Exchange) :
    ∃ first rest, matchFile (e.watched log) r world =
      ((matchFile e r world).1, (matchFile e r world).2.watched (log ++ (first ++ rest))) ∧
      Checked e.limit.ceiling first ((govern world.files).run e).1 ∧
      match (govern world.files).run e with
      | (.error fault, e₁) => rest = [] ∧ matchFile e r world = ((.error fault, world), e₁)
      | (.ok _, _) => RecordChecks e.limit.ceiling 0 rest (fileAttempts e r world).length
          (Call.faultOf (matchFile e r world).1.1) := by
  obtain ⟨first, hwatched, hcheck⟩ := govern_makes world.files e log
  have hquiet : Spared e ((govern world.files).run e).2 := quiet_govern e
  rcases hgovern : (govern world.files).run e with ⟨fault | _, e₁⟩ <;>
    rw [hgovern] at hwatched hcheck hquiet
  · refine ⟨first, [], ?_, hcheck, rfl, ?_⟩
    · unfold matchFile
      rw [hwatched, hgovern, List.append_nil]
    · unfold matchFile
      rw [hgovern]
  · have haccepts : (e₁.watched (log ++ first)).accepts r = e₁.accepts r := rfl
    unfold fileAttempts
    rw [matchFile_governed hgovern, matchFile_governed hwatched, haccepts, hgovern]
    dsimp only
    by_cases haccepted : e₁.accepts r = true
    · rw [if_pos haccepted, if_pos haccepted, if_pos haccepted, processFile_eq, processFile_eq]
      rcases opening r world with ⟨outcome, left⟩ | ⟨⟨output, errors⟩, opened, input⟩
      · exact ⟨first, [], by rw [List.append_nil], hcheck, .done⟩
      · obtain ⟨rest, hrecords, hrest⟩ := matchRecords_makes opened.files r
          (recordsOf r.wholeFile input) {} e₁ (log ++ first)
        rw [hquiet.limit] at hrest
        unfold matchInputFile
        rcases hrun : matchRecords opened.files r {} (recordsOf r.wholeFile input) e₁ with
          ⟨⟨ended, tally⟩, e₂⟩
        rw [hrun] at hrecords hrest
        refine ⟨first, rest, ?_, hcheck, ?_⟩
        · dsimp only
          rw [hrecords, hrun, List.append_assoc]
          cases ended <;> rfl
        · dsimp only
          rw [hrun]
          cases ended <;> exact hrest
    · rw [if_neg haccepted, if_neg haccepted, if_neg haccepted]
      exact ⟨first, [], by rw [List.append_nil]; rfl, hcheck, .done⟩

end

end Engine

/-! ## Calls -/

open PatternEngine.Engine

/-- What follows a check is not done if the check ends in a fault. -/
theorem Engine.run_unchecked {β : Type} {files : FileSystem} {e : Engine σ} {fault : Fault}
    (f : Unit → Action σ β) (h : ((govern files).run e).1 = .error fault) :
    ∃ e', (govern files >>= f).run e = (.error fault, e') ∧ Spared e e' := by
  have hquiet : Spared e ((govern files).run e).2 := quiet_govern e
  rw [run_bind]
  rcases hgovern : (govern files).run e with ⟨fault' | _, e'⟩ <;> rw [hgovern] at h hquiet
  · cases h
    exact ⟨e', rfl, hquiet⟩
  · cases h

/-- A call ends in a fault, and has changed nothing but the state of the module. -/
def Call.Fails (call : Call) (world : World) (e : Engine σ) (fault : Fault) : Prop :=
  call.fault? world e = some fault ∧ Spared e (call.after world e)

/-- What a call asks of the collector, and what becomes of the call when the collector does not do
it. -/
def Call.Asks (call : Call) (world : World) (e : Engine σ) (made : List Exchange) : Prop :=
  match call with
  | .matchInput .. | .trace .. => ∃ check, Checked e.limit.ceiling made check ∧
      ∀ fault, check = .error fault → call.Fails world e fault
  | .matchFile r => ∃ first rest check, made = first ++ rest ∧
      Checked e.limit.ceiling first check ∧
      (∀ fault, check = .error fault → rest = [] ∧ call.Fails world e fault ∧
        (Engine.matchFile e r world).1.2 = world) ∧
      (check = .ok () → RecordChecks e.limit.ceiling 0 rest (fileAttempts e r world).length
        (call.fault? world e))
  | .queryLimit => ∃ count, Counted made count ∧
      ((Engine.queryLimit world.files).run e).1 = count.map (Usage.mk e.limit.megabytes) ∧
      Spared e (call.after world e)
  | .setLimit megabytes =>
    let result := ((Engine.setLimit world.files megabytes).run e).1
    Requested megabytes made result ∧ ∀ fault, result = .error fault → call.Fails world e fault
  | _ => made = []

/-- A call comes to the same when the module is watched, and asks what is due. -/
theorem after_watched (call : Call) (world : World) (e : Engine σ) (log : List Exchange) :
    ∃ made, call.after world (e.watched log) = (call.after world e).watched (log ++ made) ∧
      call.Asks world e made := by
  have hmirrored : ∀ {α : Type} {a : Action σ α} {a' : Action (σ × List Exchange) α},
      Mirrors a a' → (a'.run (e.watched log)).2 = (a.run e).2.watched (log ++ []) := by
    intro α a a' ha
    rw [ha e log, List.append_nil]
  cases call with
  | compile expression => exact ⟨[], hmirrored (mirrors_compile expression), rfl⟩
  | free pattern => exact ⟨[], hmirrored (mirrors_freePattern pattern), rfl⟩
  | load source => exact ⟨[], hmirrored (mirrors_load source), rfl⟩
  | loadFile path => exact ⟨[], hmirrored (mirrors_loadFile path), rfl⟩
  | importPackage package under =>
    exact ⟨[], hmirrored (mirrors_importPackage package under), rfl⟩
  | searchPath => exact ⟨[], hmirrored mirrors_searchPath, rfl⟩
  | setSearchPath path => exact ⟨[], hmirrored (mirrors_setSearchPath path), rfl⟩
  | config => exact ⟨[], hmirrored mirrors_config, rfl⟩
  | matchInput pattern start encoder input =>
    obtain ⟨made, hwatched, hcheck⟩ :=
      matchInput_makes world.files pattern start encoder input e log
    refine ⟨made, congrArg Prod.snd hwatched, _, hcheck, fun fault hfault => ?_⟩
    obtain ⟨e', hmatch, hspared⟩ : ∃ e',
        (matchInput world.files pattern start encoder input).run e = (.error fault, e') ∧
          Spared e e' := run_unchecked _ hfault
    rw [Call.Fails, Call.fault?, Call.after, hmatch]
    exact ⟨rfl, hspared⟩
  | trace pattern start style input =>
    obtain ⟨made, hwatched, hcheck⟩ := trace_makes world.files pattern start style input e log
    refine ⟨made, congrArg Prod.snd hwatched, _, hcheck, fun fault hfault => ?_⟩
    obtain ⟨e', htrace, hspared⟩ : ∃ e',
        (trace world.files pattern start style input).run e = (.error fault, e') ∧ Spared e e' :=
      run_unchecked _ hfault
    rw [Call.Fails, Call.fault?, Call.after, htrace]
    exact ⟨rfl, hspared⟩
  | matchFile r =>
    obtain ⟨first, rest, hwatched, hcheck, hrest⟩ := matchFile_makes e r world log
    refine ⟨first ++ rest, congrArg Prod.snd hwatched, first, rest, _, rfl, hcheck, ?_⟩
    have hquiet : Spared e ((govern world.files).run e).2 := quiet_govern e
    rcases hgovern : (govern world.files).run e with ⟨fault' | _, e₁⟩ <;>
      rw [hgovern] at hrest hquiet <;> dsimp only at hrest
    · obtain ⟨rfl, hmatch⟩ := hrest
      refine ⟨fun fault hfault => ?_, fun hok => by cases hok⟩
      cases hfault
      rw [Call.Fails, Call.fault?, Call.after, hmatch]
      exact ⟨rfl, ⟨rfl, hquiet⟩, rfl⟩
    · exact ⟨fun fault hfault => by (cases hfault), fun _ => hrest⟩
  | queryLimit =>
    obtain ⟨made, hwatched, count, hcount, hresult⟩ := queryLimit_makes world.files e log
    exact ⟨made, congrArg Prod.snd hwatched, count, hcount, hresult, quiet_queryLimit e⟩
  | setLimit megabytes =>
    obtain ⟨made, hwatched, hrequest⟩ := setLimit_makes world.files megabytes e log
    refine ⟨made, congrArg Prod.snd hwatched, hrequest, ?_⟩
    intro fault hfault
    have hspared := atomic_setLimit megabytes e fault _ (Prod.ext hfault rfl)
    exact ⟨by rw [Call.fault?, hfault]; rfl, hspared⟩

/-! ## Runs -/

/-- The limit that a call asks for, with the memory in use, if it is accepted. -/
def Call.accepted (call : Call) (world : World) (e : Engine σ) : Option Usage :=
  match call with
  | .setLimit megabytes => ((Engine.setLimit world.files megabytes).run e).1.toOption
  | _ => none

/-- A call that is not accepted as a request for a limit keeps the limit. -/
theorem after_limit (call : Call) (world : World) (e : Engine σ) :
    (call.after world e).limit = ((call.accepted world e).map Usage.limit).getD e.limit := by
  cases call with
  | compile expression => exact (compile_kept _ expression e).spared.limit
  | free pattern =>
    simp only [Call.after, freePattern_run]
    split <;> rfl
  | matchInput pattern start encoder input => exact (matches_matchInput _ _ _ _ e).limit
  | trace pattern start style input => exact (quiet_trace _ _ _ _ e).limit
  | load source => exact (quiet_load source e).limit
  | loadFile path => exact (quiet_loadFile path e).limit
  | importPackage package under => exact (quiet_importPackage package under e).limit
  | matchFile request => exact (matchFile_steady e request world).limit
  | searchPath => exact (quiet_searchPath e).limit
  | setSearchPath path => exact (quiet_setSearchPath path e).limit
  | config => exact (quiet_config e).limit
  | queryLimit => exact (quiet_queryLimit e).limit
  | setLimit megabytes =>
    unfold Call.after Call.accepted
    dsimp only
    rcases hrun : (setLimit world.files megabytes).run e with ⟨fault | u, e'⟩
    · exact (atomic_setLimit megabytes e fault e' hrun).limit
    · exact setLimit_limit hrun

/-- The requests that are accepted in a run, in order. -/
def Engine.accepted (e : Engine σ) : List (Call × World) → List Usage
  | [] => []
  | (call, world) :: calls =>
    (call.accepted world e).toList ++ (call.after world e).accepted calls

/-- The limit is the one that was last accepted. -/
theorem afterAll_limit (e : Engine σ) (calls : List (Call × World)) :
    (e.afterAll calls).limit = ((e.accepted calls).getLast?.map Usage.limit).getD e.limit := by
  induction calls generalizing e with
  | nil => rfl
  | cons step calls ih =>
    obtain ⟨call, world⟩ := step
    have hrest : (e.afterAll ((call, world) :: calls)).limit =
        ((call.after world e).afterAll calls).limit := rfl
    rw [hrest, ih, after_limit, Engine.accepted, List.getLast?_append]
    cases ((call.after world e).accepted calls).getLast? with
    | some u => rfl
    | none => cases call.accepted world e <;> rfl

/-- What the calls of a run ask of the collector, one after the other. -/
def Engine.Asks (e : Engine σ) : List (Call × World) → List Exchange → Prop
  | [], log => log = []
  | (call, world) :: calls, log => ∃ made later, log = made ++ later ∧
      call.Asks world e made ∧ (call.after world e).Asks calls later

theorem afterAll_watched (calls : List (Call × World)) : ∀ (e : Engine σ) (log : List Exchange),
    ∃ made, (e.watched log).afterAll calls = (e.afterAll calls).watched (log ++ made) ∧
      e.Asks calls made := by
  induction calls with
  | nil => exact fun e log => ⟨[], by rw [List.append_nil]; rfl, rfl⟩
  | cons step calls ih =>
    intro e log
    obtain ⟨call, world⟩ := step
    obtain ⟨made, hcall, hasks⟩ := after_watched call world e log
    obtain ⟨later, hcalls, hlater⟩ := ih (call.after world e) (log ++ made)
    refine ⟨made ++ later, ?_, made, later, rfl, hasks, hlater⟩
    rw [← List.append_assoc]
    calc (e.watched log).afterAll ((call, world) :: calls)
        = (call.after world (e.watched log)).afterAll calls := rfl
      _ = ((call.after world e).watched (log ++ made)).afterAll calls := by rw [hcall]
      _ = ((call.after world e).afterAll calls).watched (log ++ made ++ later) := hcalls

/-! ## New engines -/

theorem Engine.methodsOf_watched (exports : Exports σ) :
    methodsOf exports.watched = (methodsOf exports).map Methods.watched := by
  unfold methodsOf Exports.watched
  rcases exports.engine with _ | _ | creation
  · rfl
  · rfl
  · cases creation <;> rfl

theorem Engine.slotsOf_watched (exports : Option (Exports σ)) :
    slotsOf (exports.map Exports.watched) = (slotsOf exports).map Slots.watched := by
  cases exports with
  | none => rfl
  | some exports =>
    unfold slotsOf require
    simp only [Option.map_some, bind, Except.bind, methodsOf_watched]
    cases methodsOf exports with
    | error fault => rfl
    | ok methods =>
      unfold Exports.watched
      rcases exports.services with _ | ⟨json, strip, encoders, collect⟩
      · rfl
      · rcases json with _ | _ | encoder
        · rfl
        · rfl
        · rcases strip with _ | stripper
          · rfl
          · rcases encoders with _ | encoders
            · rfl
            · rcases collect with _ | collector
              · rfl
              · simp only [Option.map_some, Services.watched]
                cases BuiltinEncoder.all.find? fun builtin => encoders.contains builtin.name <;> rfl

/-- A module that is watched starts like the module. -/
theorem Engine.boot_watched (startup : Startup σ) :
    boot startup.watched = (boot startup).map (·.watched []) := by
  cases startup with
  | finished exports state =>
    unfold Startup.watched boot
    dsimp only
    rw [slotsOf_watched]
    cases slotsOf exports <;> rfl
  | _ => rfl

section

variable {module : RuntimeModule σ} {installation : FileSystem} {settings : Settings}
  {standardHome : Bytes} {options : Options} {e₀ : Engine σ}

/-- What making an engine comes to. -/
theorem create_eq_ok : create module installation settings standardHome options = .ok e₀ ↔
    ∃ home booted e₁ usage, Home.resolve installation settings standardHome = .ok home ∧
      boot (module.start home.root (home.moduleSearchPath settings)) = .ok booted ∧
      (setSearchPath installation (options.searchPath.getD home.searchPath)).run booted =
        (.ok (), e₁) ∧
      (setLimit installation options.megabytes).run e₁ = (.ok usage, e₀) := by
  unfold create
  constructor
  · intro h
    obtain ⟨home, hhome, h⟩ := bind_eq_ok.1 h
    obtain ⟨booted, hboot, h⟩ := bind_eq_ok.1 h
    dsimp only at h
    split at h
    · rename_i hsetUp
      cases h
      obtain ⟨_, e₁, hpath, hrest⟩ := run_bind_eq_ok.1 hsetUp
      obtain ⟨usage, e₂, hlimit, hdone⟩ := run_bind_eq_ok.1 hrest
      cases hdone
      exact ⟨home, booted, e₁, usage, hhome, hboot, hpath, hlimit⟩
    · cases h
  · rintro ⟨home, booted, e₁, usage, hhome, hboot, hpath, hlimit⟩
    refine bind_eq_ok.2 ⟨home, hhome, bind_eq_ok.2 ⟨booted, hboot, ?_⟩⟩
    dsimp only
    rw [run_bind_ok hpath, run_bind_ok hlimit]
    rfl

/-- To make an engine is to request the limit that it starts with. -/
theorem create_watched (h : create module installation settings standardHome options = .ok e₀) :
    ∃ first usage,
      create module.watched installation settings standardHome options = .ok (e₀.watched first) ∧
      Requested options.megabytes first (.ok usage) ∧ e₀.limit = usage.limit := by
  obtain ⟨home, booted, e₁, usage, hhome, hboot, hpath, hlimit⟩ := create_eq_ok.1 h
  let path := options.searchPath.getD home.searchPath
  have hpath' : (setSearchPath installation path).run (booted.watched []) =
      (((setSearchPath installation path).run booted).1,
        ((setSearchPath installation path).run booted).2.watched []) :=
    mirrors_setSearchPath path booted []
  obtain ⟨first, hlimit', hrequest⟩ := setLimit_makes installation options.megabytes e₁ []
  rw [hpath] at hpath'
  rw [hlimit] at hlimit' hrequest
  refine ⟨first, usage, ?_, hrequest, setLimit_limit hlimit⟩
  refine create_eq_ok.2 ⟨home, booted.watched [], e₁.watched [], usage, hhome, ?_, hpath', hlimit'⟩
  exact (boot_watched _).trans (by rw [hboot]; rfl)

/-- Whatever its collector replies, an engine asks it for nothing but what the limit calls for, and
the limit is the one that was last accepted, or else the one that the engine was made with. A count
that is a whole number is taken as it is. -/
theorem collector_follows_limit
    (hmade : create module installation settings standardHome options = .ok e₀) :
    (∃ (first : List Exchange) (usage : Usage),
      create module.watched installation settings standardHome options = .ok (e₀.watched first) ∧
      Requested options.megabytes first (.ok usage) ∧
      ∀ calls : List (Call × World), ∃ log,
        (e₀.watched first).afterAll calls = (e₀.afterAll calls).watched (first ++ log) ∧
        e₀.Asks calls log ∧
        (e₀.afterAll calls).limit = ((e₀.accepted calls).getLast?.getD usage).limit) ∧
    ∀ (x : Decimal.Double) (n : Nat), x.toInt? = some (n : Int) → reading? (.float x) = some n := by
  refine ⟨?_, fun x n => reading_whole⟩
  obtain ⟨first, usage, hwatched, hrequest, hlimit⟩ := create_watched hmade
  refine ⟨first, usage, hwatched, hrequest, ?_⟩
  intro calls
  obtain ⟨log, hcalls, hasks⟩ := afterAll_watched calls e₀ first
  refine ⟨log, hcalls, hasks, ?_⟩
  rw [afterAll_limit, hlimit]
  cases (e₀.accepted calls).getLast? <;> rfl

/-- An engine is made with a limit of eight megabytes, and asked for a higher and for a lower one,
of which the lower one is too small. -/
theorem collector_follows_limit_sample :
    let world : World := ⟨Standard.sample, [], [], []⟩
    let calls : List (Call × World) := [(.setLimit 9, world),
      (.matchInput ⟨5⟩ 1 (text "line") (text "a"), world), (.setLimit 7, world)]
    ∃ (e₀ : Engine Unit) (first log : List Exchange) (usage : Usage),
      create echoing Standard.sample {} (text "r") { megabytes := 8 } = .ok e₀ ∧
      Requested 8 first (.ok usage) ∧ e₀.Asks calls log ∧ e₀.accepted calls = [⟨9, 0⟩] ∧
      (e₀.afterAll calls).limit = ⟨9, 9216⟩ := by
  intro world calls
  obtain ⟨e₀, hmade, haccepted⟩ : ∃ e₀ : Engine Unit,
      create echoing Standard.sample {} (text "r") { megabytes := 8 } = .ok e₀ ∧
      e₀.accepted calls = [⟨9, 0⟩] := ⟨_, rfl, rfl⟩
  obtain ⟨⟨first, usage, -, hrequest, hruns⟩, -⟩ := collector_follows_limit hmade
  obtain ⟨log, -, hasks, hlimit⟩ := hruns calls
  have hlast : ((e₀.accepted calls).getLast?.getD usage).limit = ⟨9, 9216⟩ := by
    rw [haccepted, List.getLast?_singleton, Option.getD_some]
    rfl
  exact ⟨e₀, first, log, usage, hmade, hrequest, hasks, haccepted, hlimit.trans hlast⟩

end

end PatternEngine
