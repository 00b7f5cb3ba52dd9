import CodeAudit.Source.Language
import CodeAudit.Text.Lines
/-!
# Counting lines

Every line of a source is code, comment or blank. A line that is not blank is code when some of its
text that is not blank stands outside of comments. Whether a block comment is open is carried from
line to line; a quoted span ends with its line, and no marker inside of it counts.
-/
namespace CodeAudit

/-- What a marker outside of quotes opens. -/
inductive Marker where
  /-- A comment up to the end of the line. -/
  | line
  /-- A block comment. -/
  | block
deriving DecidableEq, Repr

/-- Where the reader of a line stands among the quoted spans. -/
inductive Quoting where
  | outside
  /-- In a span opened by the given quote; `escaped` after a backslash. -/
  | inside (quote : Char) (escaped : Bool)
deriving DecidableEq, Repr

/-- A quoted span after one more of its characters. -/
def Quoting.next (quote : Char) (escaped : Bool) (c : Char) : Quoting :=
  if escaped then .inside quote false
  else if c = '\\' then .inside quote true
  else if c = quote then .outside
  else .inside quote false

namespace CommentStyle

/-- The marker a text outside of quotes starts with, and its length; a line marker goes first. -/
def markerAt? (style : CommentStyle) (text : List Char) : Option (Marker × Nat) :=
  if style.lineMarker.isPrefixOf text then some (.line, style.lineMarker.length)
  else
    match style.block with
    | some markers =>
      if markers.opening.isPrefixOf text then some (.block, markers.opening.length) else none
    | none => none

/-- A text cut at its first marker outside of quotes. -/
structure Cut where
  /-- The text before the marker. -/
  before : List Char
  marker : Marker
  /-- The text after the marker. -/
  after : List Char
deriving DecidableEq, Repr

/-- Cuts a text at its first marker outside of quotes. -/
def cut? (style : CommentStyle) : Quoting → List Char → Option Cut
  | _, [] => none
  | .inside quote escaped, c :: rest =>
    (style.cut? (Quoting.next quote escaped c) rest).map fun k => { k with before := c :: k.before }
  | .outside, c :: rest =>
    if c ∈ style.quotes then
      (style.cut? (.inside c false) rest).map fun k => { k with before := c :: k.before }
    else
      match style.markerAt? (c :: rest) with
      | some (marker, length) => some ⟨[], marker, (c :: rest).drop length⟩
      | none => (style.cut? .outside rest).map fun k => { k with before := c :: k.before }

/-- The text after the first place where `marker` occurs. -/
def after? (marker : List Char) (text : List Char) : Option (List Char) :=
  if marker.isPrefixOf text then some (text.drop marker.length)
  else
    match text with
    | [] => none
    | _ :: rest => after? marker rest

/-- The scan of a line: what is left of it, and what has been seen so far. -/
structure Scan where
  /-- A block comment is open. -/
  inBlock : Bool
  /-- Some text that is not blank stood outside of comments. -/
  hasCode : Bool
  rest : List Char
deriving DecidableEq, Repr

/-- What a line comes to: whether it has code, and whether it leaves a block comment open. -/
structure LineEnd where
  hasCode : Bool
  inBlock : Bool
deriving DecidableEq, Repr

/-- One step of a scan: to the end of the open block comment, or to the next marker. -/
def step (style : CommentStyle) (s : Scan) : LineEnd ⊕ Scan :=
  if s.inBlock then
    match style.block with
    | none => .inl ⟨s.hasCode, false⟩
    | some markers =>
      match after? markers.closing s.rest with
      | none => .inl ⟨s.hasCode, true⟩
      | some rest => .inr ⟨false, s.hasCode, rest⟩
  else
    match style.cut? .outside s.rest with
    | none => .inl ⟨s.hasCode || !Text.isBlankLine s.rest, false⟩
    | some ⟨before, .line, _⟩ => .inl ⟨s.hasCode || !Text.isBlankLine before, false⟩
    | some ⟨before, .block, rest⟩ => .inr ⟨true, s.hasCode || !Text.isBlankLine before, rest⟩

/--
Twice the text that is left, and one more in the state that the non-empty marker does not leave:
every step makes it smaller.
-/
def measure (style : CommentStyle) (s : Scan) : Nat :=
  2 * s.rest.length +
    match style.block with
    | none => 0
    | some markers => if s.inBlock = markers.closing.isEmpty then 1 else 0

/-- What comes after a marker is shorter than the text by the marker. -/
theorem after?_length {marker text rest : List Char} (h : after? marker text = some rest) :
    rest.length + marker.length ≤ text.length := by
  induction text with
  | nil =>
    unfold after? at h
    split at h
    · next hp => cases h; cases marker <;> simp_all
    · cases h
  | cons c text ih =>
    unfold after? at h
    split at h
    · next hp =>
      cases h
      have := (List.isPrefixOf_iff_prefix.1 hp).length_le
      simp only [List.length_drop]; omega
    · have := ih h
      simp only [List.length_cons]; omega

/-- A block comment is opened by the style's opening marker, which is taken off the text. -/
theorem cut?_block {style : CommentStyle} {quoting : Quoting} {text before rest : List Char}
    (h : style.cut? quoting text = some ⟨before, .block, rest⟩) :
    ∃ markers, style.block = some markers ∧
      rest.length + markers.opening.length ≤ text.length := by
  induction text generalizing quoting before with
  | nil => simp [cut?] at h
  | cons c text ih =>
    have more {q : Quoting}
        (hq : (style.cut? q text).map (fun k => { k with before := c :: k.before })
          = some ⟨before, .block, rest⟩) :
        ∃ markers, style.block = some markers ∧
          rest.length + markers.opening.length ≤ (c :: text).length := by
      obtain ⟨⟨b, m, r⟩, hk, he⟩ := Option.map_eq_some_iff.1 hq
      cases he
      obtain ⟨markers, hb, hl⟩ := ih hk
      exact ⟨markers, hb, by simp only [List.length_cons] at hl ⊢; omega⟩
    cases quoting with
    | inside quote escaped => exact more h
    | outside =>
      simp only [cut?] at h
      split at h
      · exact more h
      · split at h
        · next marker length hm =>
          cases h
          unfold markerAt? at hm
          split at hm
          · cases hm
          · split at hm
            · next markers hb =>
              split at hm
              · next hp =>
                cases hm
                have := (List.isPrefixOf_iff_prefix.1 hp).length_le
                exact ⟨markers, hb, by simp only [List.length_drop]; omega⟩
              · cases hm
            · cases hm
        · exact more h

/-- Each step of a scan gets closer to the end of the line. -/
theorem measure_step {style : CommentStyle} {s t : Scan} (h : style.step s = .inr t) :
    style.measure t < style.measure s := by
  unfold step at h
  split at h
  · next hin =>
    split at h
    · cases h
    · next markers hb =>
      split at h
      · cases h
      · next rest ha =>
        cases h
        have := after?_length ha
        simp only [measure, hb, hin]
        cases hc : markers.closing with
        | nil => simp; omega
        | cons => simp [hc] at this ⊢; omega
  · next hin =>
    have hin : s.inBlock = false := by simpa using hin
    split at h
    · cases h
    · cases h
    · next before rest hcut =>
      cases h
      obtain ⟨markers, hb, hl⟩ := cut?_block hcut
      simp only [measure, hb, hin]
      cases hc : markers.closing with
      | nil =>
        have := List.length_pos_iff.2 (markers.nonempty.resolve_right (by simp [hc]))
        simp; omega
      | cons => simp; omega

/-- The scan of a line to its end. -/
def scan (style : CommentStyle) (s : Scan) : LineEnd :=
  match _h : style.step s with
  | .inl done => done
  | .inr more => style.scan more
termination_by style.measure s
decreasing_by exact measure_step _h

end CommentStyle

/-- How many lines of a source are of each sort. -/
structure LineCounts where
  code : Nat := 0
  comment : Nat := 0
  blank : Nat := 0
deriving DecidableEq, Repr

namespace LineCounts

/-- One more line, and whether it leaves a block comment open. -/
def addLine (style : CommentStyle) (counts : LineCounts) (inBlock : Bool) (line : Text.Line) :
    LineCounts × Bool :=
  if Text.isBlankLine line then ({ counts with blank := counts.blank + 1 }, inBlock)
  else
    match style.scan ⟨inBlock, false, line⟩ with
    | ⟨true, stillIn⟩ => ({ counts with code := counts.code + 1 }, stillIn)
    | ⟨false, stillIn⟩ => ({ counts with comment := counts.comment + 1 }, stillIn)

/-- The counts of some lines, read with no block comment open before the first. -/
def ofLines (style : CommentStyle) (lines : List Text.Line) : LineCounts :=
  (lines.foldl (fun state line => addLine style state.1 state.2 line) ({}, false)).1

/-- The counts of a source. -/
def ofSource (style : CommentStyle) (source : String) : LineCounts :=
  ofLines style (Text.lines source.toList)

end LineCounts

end CodeAudit
