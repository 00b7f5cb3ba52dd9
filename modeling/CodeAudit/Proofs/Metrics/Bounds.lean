import CodeAudit.Proofs.Metrics.Attribution
import CodeAudit.Proofs.Metrics.Placement
/-!
# No part has more than the whole

What a node adds to a function or a class it adds to the file in the same step of the walk. So at every
moment of the walk no function and no class has more than the file, however they are nested and whatever
identities the nodes have; and a function that goes beyond a threshold takes its file along.
-/
namespace CodeAudit

/-- What holds of all items holds after one of them has been changed, if the change keeps it. -/
lemma of_mem_modifyAt {α : Type} {before after : α → Prop} {items : Array α} {index : Option Nat}
    {change : α → α} {a : α} (ha : a ∈ (modifyAt items index change).toList)
    (h : ∀ a ∈ items.toList, before a) (hsame : ∀ a, before a → after a)
    (hchange : ∀ a, before a → after (change a)) : after a := by
  rw [toList_modifyAt] at ha
  cases index with
  | none => exact hsame a (h a ha)
  | some i =>
    obtain ⟨j, hj⟩ := List.mem_iff_getElem?.1 ha
    rw [Option.elim, List.getElem?_modify, Option.map_eq_map, Option.map_eq_some_iff] at hj
    obtain ⟨b, hb, rfl⟩ := hj
    have hbefore : before b := h b (List.mem_of_getElem? hb)
    split
    · exact hchange b hbefore
    · exact hsame b hbefore

/-- A function has been charged with no more decisions and points than there are. -/
structure FunctionMetrics.Within (decisions points : Nat) (f : FunctionMetrics) : Prop where
  cyclomatic : f.cyclomatic ≤ 1 + decisions
  cognitive : f.cognitive ≤ points

def ClassMetrics.Within (decisions : Nat) (c : ClassMetrics) : Prop :=
  c.complexity ≤ 1 + decisions

section Charge

variable {r : Reading} {n : Node} {decisions points more : Nat}

/-- A function stays within more decisions and points. -/
lemma FunctionMetrics.Within.mono {f : FunctionMetrics} (h : f.Within decisions points)
    {morePoints : Nat} (hmore : decisions ≤ more) (hpoints : points ≤ morePoints) :
    f.Within more morePoints :=
  ⟨h.cyclomatic.trans (Nat.add_le_add_left hmore 1), h.cognitive.trans hpoints⟩

/-- What a function is charged with is counted elsewhere too. -/
lemma FunctionMetrics.Within.charge {f : FunctionMetrics} (h : f.Within decisions points) :
    (r.chargeFunction n f).Within (decisions + (r.profile.isDecision n).toNat)
      (points + (r.profile.isPoint n).toNat) := by
  constructor
  case cyclomatic =>
    rw [← Nat.add_assoc]
    exact Nat.add_le_add_right h.cyclomatic _
  case cognitive => exact Nat.add_le_add_right h.cognitive _

/-- A class stays within more decisions. -/
lemma ClassMetrics.Within.mono {c : ClassMetrics} (h : c.Within decisions)
    (hmore : decisions ≤ more) : c.Within more :=
  Nat.le_trans h (Nat.add_le_add_left hmore 1)

/-- A node adds no more to a class than to the file. -/
lemma ClassMetrics.Within.charge {c : ClassMetrics} (h : c.Within decisions) :
    (r.chargeClass n c).Within (decisions + (r.profile.isDecision n).toNat) := by
  rw [Within, ← Nat.add_assoc]
  exact Nat.add_le_add_right h _

end Charge

namespace Tally

/-- No function and no class has been charged with more than the file. -/
structure Bounded (t : Tally) : Prop where
  functions : ∀ f ∈ t.functions.toList, f.Within t.decisions t.cognitive
  classes : ∀ c ∈ t.classes.toList, c.Within t.decisions

variable {r : Reading} {n : Node} {t : Tally}

/-- A function or class that is opened starts with nothing charged to it. -/
lemma Bounded.openScope (h : t.Bounded) (hnamed : n.named = true) (parent : Option Node) :
    (t.openScope r n parent).Bounded := by
  have hopens := opens_openScope (r := r) t hnamed parent
  generalize t.openScope r n parent = next at hopens
  cases hopens with
  | function _ =>
    constructor
    case functions =>
      intro f hf
      rw [Array.toList_push, List.mem_append, List.mem_singleton] at hf
      cases hf with
      | inl hf => exact h.functions f hf
      | inr hf =>
        subst hf
        exact ⟨Nat.le_add_right 1 _, Nat.zero_le _⟩
    case classes => exact h.classes
  | «class» _ =>
    constructor
    case functions => exact h.functions
    case classes =>
      intro c hc
      rw [Array.toList_push, List.mem_append, List.mem_singleton] at hc
      cases hc with
      | inl hc => exact h.classes c hc
      | inr hc =>
        subst hc
        exact Nat.le_add_right 1 _
  | none _ _ => exact h

/-- What a node is counted as is added to the file too. -/
lemma Bounded.count (hseparate : r.profile.Separate) (h : t.Bounded) (hnamed : n.named = true) :
    (t.count r n).Bounded := by
  rw [count_eq_charge t hseparate hnamed, charge_eq]
  constructor
  case functions =>
    intro f hf
    apply of_mem_modifyAt hf h.functions
    · exact fun _ hf => hf.mono (Nat.le_add_right _ _) (Nat.le_add_right _ _)
    · exact fun _ hf => hf.charge
  case classes =>
    intro c hc
    apply of_mem_modifyAt hc h.classes
    · exact fun _ hc => hc.mono (Nat.le_add_right _ _)
    · exact fun _ hc => hc.charge

/-- A node that is entered keeps all parts within the file. -/
lemma Bounded.enter (hseparate : r.profile.Separate) (h : t.Bounded) (c : Cursor) :
    (t.enter r c).Bounded := by
  rw [Tally.enter]
  split
  · next hnamed => exact (h.openScope hnamed _).count hseparate hnamed
  · exact h

/-- A node that is left keeps all parts within the file. -/
lemma Bounded.leave (h : t.Bounded) (c : Cursor) : (t.leave c).Bounded := by
  rw [Tally.leave]
  split
  · split
    · exact ⟨h.functions, h.classes⟩
    · exact h
  · exact h

/-- After a walk no function and no class has more than the file. -/
theorem bounded_ofTree (hseparate : r.profile.Separate) (root : Node) : (ofTree r root).Bounded := by
  have hkept : Cursor.KeptBy (fun _ _ t => Bounded t) (Tally.enter r) Tally.leave root := by
    constructor
    case enter =>
      intro _ c t _ _ h
      exact h.enter hseparate c
    case leave =>
      intro _ c t _ _ h
      exact h.leave c
  apply hkept.walk
  exact ⟨nofun, nofun⟩

end Tally

namespace Finding

variable {c : MetricsConfig} {m : FileMetrics} {i : Issue}

/-- A finding about a function is one about a function with too many decisions. -/
lemma exists_function_of_mem_ofMetrics (h : i ∈ ofMetrics c m)
    (hrule : i.ruleId = "complexity/function") :
    i.location.file = m.path ∧ ∃ f ∈ m.functions, c.cyclomatic < f.cyclomatic := by
  refine ⟨(about_of_mem_ofMetrics h).file, ?_⟩
  simp only [ofMetrics, List.mem_append, List.mem_flatMap] at h
  obtain hfile | ⟨f, hf, hi⟩ := h
  case inl =>
    -- the findings about the file as a whole go by other rules
    exfalso
    obtain ((h | h) | h) | h := hfile
    all_goals
      rw [ruleId_of_mem_when h] at hrule
      simp [ofFile, Issue.suggest] at hrule
  case inr =>
    refine ⟨f, hf, ?_⟩
    rw [function, when] at hi
    split at hi
    · next hover => exact of_decide_eq_true hover
    · exact absurd hi List.not_mem_nil

/-- The finding about a file that has too many decisions. -/
lemma exists_mem_cyclomatic (h : c.cyclomatic < m.cyclomatic) :
    ∃ i ∈ ofMetrics c m, i.ruleId = "complexity/cyclomatic" ∧ i.severity = .warning ∧
      i.location = ⟨m.path, 1, 1⟩ := by
  obtain ⟨message, suggestion, hfile⟩ : ∃ message suggestion, cyclomatic c m
      = [(ofFile .warning "complexity/cyclomatic" message m.path).suggest suggestion] :=
    ⟨_, _, if_pos (decide_eq_true h)⟩
  refine ⟨(ofFile .warning "complexity/cyclomatic" message m.path).suggest suggestion, ?_, rfl, rfl,
    rfl⟩
  simp only [ofMetrics, List.append_assoc, hfile]
  exact List.mem_append_left _ (List.mem_singleton_self _)

end Finding

/-- No function and no class of a source has more than the source as a whole, so a finding about a
function never stands without the one about the file. -/
theorem FileMetrics.parts_within_ofTree (path : Path) (language : Language) (source : String)
    (root : Node) :
    let m := FileMetrics.ofTree path language source root
    (∀ f ∈ m.functions, f.cyclomatic ≤ m.cyclomatic ∧ f.cognitive ≤ m.cognitive) ∧
    (∀ k ∈ m.classes, k.complexity ≤ m.cyclomatic) ∧
    ∀ c : MetricsConfig, ∀ i ∈ Finding.ofMetrics c m, i.ruleId = "complexity/function" →
      ∃ j ∈ Finding.ofMetrics c m, j.ruleId = "complexity/cyclomatic" ∧ j.severity = .warning ∧
        j.location = ⟨i.location.file, 1, 1⟩ := by
  intro m
  have hbounded := Tally.bounded_ofTree (r := ⟨language.profile, source.toUTF8.toList⟩)
    language.separate_profile root
  refine ⟨fun f hf => ?_, hbounded.classes, ?_⟩
  · exact ⟨(hbounded.functions f hf).cyclomatic, (hbounded.functions f hf).cognitive⟩
  intro c i hi hrule
  obtain ⟨hpath, f, hf, hover⟩ := Finding.exists_function_of_mem_ofMetrics hi hrule
  have hwhole : c.cyclomatic < m.cyclomatic := hover.trans_le (hbounded.functions f hf).cyclomatic
  rw [hpath]
  exact Finding.exists_mem_cyclomatic hwhole

/-- In the nested tree a method has two decisions, one of them in a class of its own, and the file has
four. -/
theorem nestedTree_parts_within :
    let m := FileMetrics.ofTree ⟨"n.ts"⟩ .typescript "" nestedTree
    let c : MetricsConfig := { cyclomatic := 2 }
    m.cyclomatic = 5 ∧
    ∃ i ∈ Finding.ofMetrics c m, i.ruleId = "complexity/function" ∧
      ∃ j ∈ Finding.ofMetrics c m, j.ruleId = "complexity/cyclomatic" ∧ j.severity = .warning ∧
        j.location = ⟨i.location.file, 1, 1⟩ := by
  intro m c
  have hcyclomatic : m.cyclomatic = 5 := by
    decide +kernel
  have hover : ∃ f ∈ m.functions, 2 < f.cyclomatic := by
    decide +kernel
  obtain ⟨f, hf, hlarge⟩ := hover
  obtain ⟨i, hi, hrule, -⟩ := Finding.exists_mem_ofMetrics (c := c) hf hlarge
  obtain ⟨-, -, hfinding⟩ := FileMetrics.parts_within_ofTree ⟨"n.ts"⟩ .typescript "" nestedTree
  exact ⟨hcyclomatic, i, hi, hrule, hfinding c i hi hrule⟩

end CodeAudit
