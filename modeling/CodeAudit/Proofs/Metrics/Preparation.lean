import CodeAudit.Analyzer.Basic
import CodeAudit.Proofs.Metrics.Thresholds
/-!
# Sessions of the metrics analyzer

A metrics analyzer can be asked to prepare, to analyze and to clear up, in any order and any number of
times. Preparing sets the thresholds to what the analyzer was given if that is in order, and else leaves
them as they are; nothing else sets them. So preparing again comes to the same.
-/
namespace CodeAudit

namespace MetricsConfig

variable {c : MetricsConfig} {given : Json} {fault : Fault}

/-- Thresholds that are in order. -/
structure Valid (c : MetricsConfig) : Prop where
  duplicateWindow : 0 < c.duplicateWindow
  least : 0 ≤ c.maintainability
  greatest : c.maintainability ≤ 100

/-- There is nothing wrong with thresholds that are in order, and with no others. -/
lemma problem?_eq_none_iff : c.problem? = none ↔ c.Valid := by
  rw [problem?]
  constructor
  · intro h
    split at h
    · exact absurd h (Option.some_ne_none _)
    · next hwindow =>
      split at h
      · next hrange => exact ⟨Nat.pos_of_ne_zero hwindow, hrange.1, hrange.2⟩
      · exact absurd h (Option.some_ne_none _)
  · intro h
    rw [if_neg (Nat.ne_of_gt h.duplicateWindow), if_pos ⟨h.least, h.greatest⟩]

/-- A configuration that cannot be read is a fault of configuration. -/
lemma kind_of_ofJson_eq_error (h : ofJson given = .error fault) : fault.kind = .configuration := by
  cases given with
  | null => cases h
  | _ =>
    rw [ofJson] at h
    · split at h
      · cases h
      · cases Except.error.inj h
        rfl
    · exact fun hnull => by cases hnull

end MetricsConfig

namespace MetricsAnalyzer

section Thresholds

variable {given : Json} {c : MetricsConfig} {fault : Fault}

/-- What is read is refused if there is a problem with it. -/
lemma thresholds_of_ok (h : MetricsConfig.ofJson given = .ok c) :
    thresholds given
      = match c.problem? with
        | some problem => .error (.configuration problem.message)
        | none => .ok c := by
  rw [thresholds, h]
  rfl

/-- If a configuration cannot be read, there are no thresholds. -/
lemma thresholds_of_error (h : MetricsConfig.ofJson given = .error fault) :
    thresholds given = .error fault := by
  rw [thresholds, h]
  rfl

/-- The thresholds of a value are what is read from it, if that is in order. -/
lemma thresholds_eq_ok_iff :
    thresholds given = .ok c ↔ MetricsConfig.ofJson given = .ok c ∧ c.Valid := by
  rw [← MetricsConfig.problem?_eq_none_iff]
  constructor
  · intro h
    cases hread : MetricsConfig.ofJson given with
    | error e =>
      rw [thresholds_of_error hread] at h
      cases h
    | ok config =>
      rw [thresholds_of_ok hread] at h
      cases hproblem : config.problem? with
      | some problem =>
        rw [hproblem] at h
        cases h
      | none =>
        rw [hproblem] at h
        cases h
        exact ⟨rfl, hproblem⟩
  · rintro ⟨hread, hproblem⟩
    rw [thresholds_of_ok hread, hproblem]

/-- That there are no thresholds is a fault of configuration. -/
lemma kind_of_thresholds_eq_error (h : thresholds given = .error fault) :
    fault.kind = .configuration := by
  cases hread : MetricsConfig.ofJson given with
  | error e =>
    rw [thresholds_of_error hread] at h
    cases h
    exact MetricsConfig.kind_of_ofJson_eq_error hread
  | ok config =>
    rw [thresholds_of_ok hread] at h
    split at h
    · cases h
      rfl
    · cases h

end Thresholds

/-- What an analyzer can be asked to do. -/
inductive Request where
  | prepare
  | analyze (fs : FileSystem) (grammar : Grammar) (analyzer : String) (answers : CancelAnswers)
    (paths : List Path)
  | cleanUp

/-- What a request comes to. -/
inductive Reply where
  | prepared (outcome : Except Fault Unit)
  | analyzed (outcome : Except Fault (List Issue))
  | cleanedUp (outcome : Except Fault Unit)

/-- What a request comes to, and the analyzer after it. -/
def respond (a : MetricsAnalyzer) : Request → Reply × MetricsAnalyzer
  | .prepare => (.prepared a.prepare.1, a.prepare.2)
  | .analyze fs grammar analyzer answers paths =>
    (.analyzed (a.analyze fs grammar analyzer answers paths), a)
  | .cleanUp => (.cleanedUp a.toAnalyzer.cleanup, a)

/-- What a request may come to, and what it may do to an analyzer. -/
inductive Transition (a : MetricsAnalyzer) : Request → Reply → MetricsAnalyzer → Prop where
  | accept {c} :
    thresholds a.given = .ok c →
    Transition a .prepare (.prepared (.ok ())) { a with config := c }
  | refuse {fault} :
    thresholds a.given = .error fault →
    Transition a .prepare (.prepared (.error fault)) a
  | analyze {fs grammar analyzer answers paths} :
    Transition a (.analyze fs grammar analyzer answers paths)
      (.analyzed (a.analyze fs grammar analyzer answers paths)) a
  | cleanUp :
    Transition a .cleanUp (.cleanedUp (.ok ())) a

/-- What an analyzer does at a request is one of its transitions. -/
lemma transition_respond (a : MetricsAnalyzer) (q : Request) :
    Transition a q (a.respond q).1 (a.respond q).2 := by
  cases q with
  | prepare =>
    rw [respond, prepare]
    cases h : thresholds a.given with
    | ok c => exact .accept h
    | error fault => exact .refuse h
  | analyze fs grammar analyzer answers paths => exact .analyze
  | cleanUp => exact .cleanUp

section Transition

variable {a b : MetricsAnalyzer} {q : Request} {reply : Reply} {c : MetricsConfig}

/-- No transition changes what the analyzer was given. -/
lemma Transition.given (h : Transition a q reply b) : b.given = a.given := by
  cases h <;> rfl

/-- Preparing comes to what the analyzer was given, and nothing else is answered like it. -/
lemma Transition.reply_prepare (h : Transition a .prepare reply b) :
    reply = .prepared ((thresholds a.given).map fun _ => ()) := by
  cases h with
  | accept hthresholds => rw [hthresholds]; rfl
  | refuse hthresholds => rw [hthresholds]; rfl

/-- A request to analyze is answered with the analysis. -/
lemma Transition.reply_analyze {fs : FileSystem} {grammar : Grammar} {analyzer : String}
    {answers : CancelAnswers} {paths : List Path}
    (h : Transition a (.analyze fs grammar analyzer answers paths) reply b) :
    reply = .analyzed (a.analyze fs grammar analyzer answers paths) := by
  cases h
  rfl

end Transition

/-- A request in the course of a session. -/
structure Turn where
  before : MetricsAnalyzer
  request : Request
  reply : Reply
  after : MetricsAnalyzer

/-- What becomes of some requests, one after the other. -/
def session (a : MetricsAnalyzer) : List Request → List Turn
  | [] => []
  | q :: rest => ⟨a, q, (a.respond q).1, (a.respond q).2⟩ :: (a.respond q).2.session rest

/-- A turn sets the thresholds as a whole, to what the analyzer was given and to nothing that is out of
order, or it leaves them as they are. -/
structure Turn.Atomic (t : Turn) : Prop where
  refused : ∀ fault, t.reply = .prepared (.error fault) →
    t.after.config = t.before.config ∧ fault.kind = .configuration
  accepted : t.reply = .prepared (.ok ()) →
    MetricsConfig.ofJson t.before.given = .ok t.after.config ∧ t.after.config.problem? = none ∧
      t.after.config.Valid
  others : t.request ≠ .prepare → t.after.config = t.before.config

section Session

variable {a b : MetricsAnalyzer} {q : Request} {reply : Reply} {requests : List Request}
  {t t' : Turn} {c : MetricsConfig}

/-- A turn that prepares nothing and changes no thresholds sets none. -/
lemma Turn.atomic_of_ne (hreply : ∀ outcome, t.reply ≠ .prepared outcome)
    (hconfig : t.after.config = t.before.config) : t.Atomic where
  refused _ h := absurd h (hreply _)
  accepted h := absurd h (hreply _)
  others _ := hconfig

/-- A transition sets all thresholds or none. -/
lemma Transition.atomic (h : Transition a q reply b) : Turn.Atomic ⟨a, q, reply, b⟩ := by
  cases h with
  | accept hthresholds =>
    obtain ⟨hread, hvalid⟩ := thresholds_eq_ok_iff.1 hthresholds
    constructor
    case refused => exact fun _ hreply => by cases hreply
    case accepted => exact fun _ => ⟨hread, MetricsConfig.problem?_eq_none_iff.2 hvalid, hvalid⟩
    case others => exact fun hne => absurd rfl hne
  | refuse hthresholds =>
    constructor
    case refused =>
      intro fault hreply
      cases hreply
      exact ⟨rfl, kind_of_thresholds_eq_error hthresholds⟩
    case accepted => exact fun hreply => by cases hreply
    case others => exact fun _ => rfl
  | analyze => exact Turn.atomic_of_ne (fun _ hreply => by cases hreply) rfl
  | cleanUp => exact Turn.atomic_of_ne (fun _ hreply => by cases hreply) rfl

/-- What every transition keeps holds before and after each turn of a session. -/
lemma transition_of_mem_session {I : MetricsAnalyzer → Prop}
    (hstep : ∀ b q reply b', Transition b q reply b' → I b → I b') (h : I a)
    (ht : t ∈ a.session requests) :
    I t.before ∧ Transition t.before t.request t.reply t.after := by
  induction requests generalizing a with
  | nil => exact absurd ht List.not_mem_nil
  | cons q rest ih =>
    have hturn := transition_respond a q
    cases List.mem_cons.1 ht with
    | inl heq =>
      subst heq
      exact ⟨h, hturn⟩
    | inr hmem => exact ih (hstep _ _ _ _ hturn h) hmem

/-- In each turn of a session the analyzer has what it was given at the beginning. -/
lemma given_of_mem_session (ht : t ∈ a.session requests) :
    t.before.given = a.given ∧ Transition t.before t.request t.reply t.after := by
  apply transition_of_mem_session (I := fun b => b.given = a.given) _ rfl ht
  intro b q reply b' hturn hb
  rw [hturn.given, hb]

/-- A request to prepare is answered by what the given configuration comes to. -/
lemma reply_of_mem_session (ht : t ∈ a.session requests) (hprepare : t.request = .prepare) :
    t.reply = .prepared ((thresholds a.given).map fun _ => ()) := by
  obtain ⟨hgiven, hturn⟩ := given_of_mem_session ht
  rw [hprepare] at hturn
  rw [hturn.reply_prepare, hgiven]

/-- An analyzer whose thresholds are what it was given keeps them. -/
lemma config_of_mem_session (hread : MetricsConfig.ofJson a.given = .ok c) (hconfig : a.config = c)
    (ht : t ∈ a.session requests) : t.before.config = c ∧ t.after.config = c := by
  have hkeep : ∀ b q reply b', Transition b q reply b' → b.given = a.given ∧ b.config = c →
      b'.given = a.given ∧ b'.config = c := by
    rintro b q reply b' hturn ⟨hgiven, hb⟩
    refine ⟨hturn.given.trans hgiven, ?_⟩
    cases hturn with
    | accept hthresholds =>
      rw [hgiven, thresholds_eq_ok_iff, hread] at hthresholds
      exact (Except.ok.inj hthresholds.1).symm
    | refuse => exact hb
    | analyze => exact hb
    | cleanUp => exact hb
  obtain ⟨hbefore, hturn⟩ := transition_of_mem_session hkeep ⟨rfl, hconfig⟩ ht
  exact ⟨hbefore.2, (hkeep _ _ _ _ hturn hbefore).2⟩

end Session

/-- In every session each turn that prepares the analyzer sets its thresholds to what it was given, which
is then in order, or refuses this as a bad configuration and sets nothing; the other turns set nothing
either. All turns that prepare it come to the same. An analyzer that was made with some thresholds has
these all the time, and it can be prepared if and only if there is no problem with them. -/
theorem session_atomic (a : MetricsAnalyzer) (requests : List Request) :
    (∀ t ∈ a.session requests, t.before.given = a.given ∧ t.Atomic) ∧
    (∀ t ∈ a.session requests, ∀ t' ∈ a.session requests,
      t.request = .prepare → t'.request = .prepare →
      t'.reply = t.reply ∧ (t.reply = .prepared (.ok ()) → t'.after.config = t.after.config)) ∧
    ∀ c : MetricsConfig, c.InRange → c.maintainability.isFinite = true → a = ofConfig c →
      ∀ t ∈ a.session requests, t.before.config = c ∧ t.after.config = c ∧
        (t.request = .prepare → (t.reply = .prepared (.ok ()) ↔ c.problem? = none)) := by
  have hatomic : ∀ t ∈ a.session requests, t.before.given = a.given ∧ t.Atomic := by
    intro t ht
    obtain ⟨hgiven, hturn⟩ := given_of_mem_session ht
    exact ⟨hgiven, hturn.atomic⟩
  refine ⟨hatomic, ?_, ?_⟩
  · intro t ht t' ht' hprepare hprepare'
    have hreply : t'.reply = t.reply := by
      rw [reply_of_mem_session ht hprepare, reply_of_mem_session ht' hprepare']
    refine ⟨hreply, fun hok => ?_⟩
    obtain ⟨hgiven, hturn⟩ := hatomic t ht
    obtain ⟨hgiven', hturn'⟩ := hatomic t' ht'
    have hread := (hturn.accepted hok).1
    have hread' := (hturn'.accepted (hreply.trans hok)).1
    rw [hgiven] at hread
    rw [hgiven', hread] at hread'
    exact (Except.ok.inj hread').symm
  · rintro c hrange hfinite rfl t ht
    have hread : MetricsConfig.ofJson (ofConfig c).given = .ok c :=
      MetricsConfig.ofJson_toJson hrange hfinite
    obtain ⟨hbefore, hafter⟩ := config_of_mem_session hread rfl ht
    refine ⟨hbefore, hafter, fun hprepare => ?_⟩
    rw [reply_of_mem_session ht hprepare, thresholds_of_ok hread]
    cases c.problem? with
    | none => exact iff_of_true rfl rfl
    | some problem => exact iff_of_false (fun h => by cases h) (Option.some_ne_none problem)

/-- Asked to prepare twice, with an analysis and clearing up in between, an analyzer with the odd
thresholds refuses them twice and keeps them. -/
theorem odd_session_atomic :
    let requests : List Request :=
      [.prepare, .analyze (.ofList []) (fun _ _ => none) name (fun _ => true) [⟨"a.ts"⟩], .cleanUp,
        .prepare]
    let session := (ofConfig .odd).session requests
    MetricsConfig.odd.InRange ∧ MetricsConfig.odd.maintainability.isFinite = true ∧
      session.map Turn.request = requests ∧
      (∀ t ∈ session, t.Atomic ∧ t.after.config = .odd) ∧
      ∀ t ∈ session, t.request = .prepare → t.reply ≠ .prepared (.ok ()) := by
  intro requests session
  have hrange := MetricsConfig.odd_inRange
  have hfinite := MetricsConfig.isFinite_maintainability_odd
  obtain ⟨hatomic, -, hodd⟩ := session_atomic (ofConfig .odd) requests
  refine ⟨hrange, hfinite, rfl, fun t ht => ⟨(hatomic t ht).2, ?_⟩, fun t ht hprepare hok => ?_⟩
  · exact (hodd .odd hrange hfinite rfl t ht).2.1
  · have hnone := ((hodd .odd hrange hfinite rfl t ht).2.2 hprepare).1 hok
    cases hnone

end MetricsAnalyzer

end CodeAudit
