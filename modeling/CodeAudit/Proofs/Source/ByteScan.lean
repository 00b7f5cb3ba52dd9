import CodeAudit.Proofs.Text.Utf8
import CodeAudit.Source.LineCount
/-!
# Lines scanned by offsets in bytes

A scan looks for its markers by their bytes and cuts the line at the offsets where it finds them. Those
offsets come from two searches, one through the characters outside of quotes and one through all bytes,
and either one stops between two characters only. A step may use up no text, when the marker that it
passes is empty, but then the next one does: a scan has no more steps than twice the characters of its
line and one.
-/
namespace CodeAudit

namespace CommentStyle

/-- A marker found outside of quotes; what opens a block comment comes with its length in bytes. -/
inductive ByteMarker where
  | line
  | block (length : Nat)
deriving DecidableEq, Repr

/-- The first marker outside of quotes, with its offset: it is looked for from each character on. -/
def firstMarker (style : CommentStyle) (text : List Char) :
    Quoting → List (Nat × Char) → Checked (Option (Nat × ByteMarker))
  | _, [] => pure none
  | .inside quote escaped, (_, c) :: more =>
    firstMarker style text (Quoting.next quote escaped c) more
  | .outside, (offset, c) :: more =>
    if c ∈ style.quotes then firstMarker style text (.inside c false) more
    else do
      let (_, tail) ← Text.cutAt text offset
      if (Text.utf8 style.lineMarker).isPrefixOf (Text.utf8 tail) then pure (some (offset, .line))
      else
        match style.block with
        | some markers =>
          if (Text.utf8 markers.opening).isPrefixOf (Text.utf8 tail) then
            pure (some (offset, .block (Text.utf8 markers.opening).length))
          else firstMarker style text .outside more
        | none => firstMarker style text .outside more

/-- One step of a scan, with every cut through the text checked. -/
def byteStep (style : CommentStyle) (s : Scan) : Checked (LineEnd ⊕ Scan) :=
  if s.inBlock then
    match style.block with
    | none => pure (.inl ⟨s.hasCode, false⟩)
    | some markers =>
      match Text.findBytes? (Text.utf8 markers.closing) (Text.utf8 s.rest) with
      | none => pure (.inl ⟨s.hasCode, true⟩)
      | some offset => do
        let (_, rest) ← Text.cutAt s.rest (offset + (Text.utf8 markers.closing).length)
        pure (.inr ⟨false, s.hasCode, rest⟩)
  else do
    match ← firstMarker style s.rest .outside (Text.charOffsets 0 s.rest) with
    | none => pure (.inl ⟨s.hasCode || !Text.isBlankLine s.rest, false⟩)
    | some (offset, .line) =>
      let (before, _) ← Text.cutAt s.rest offset
      pure (.inl ⟨s.hasCode || !Text.isBlankLine before, false⟩)
    | some (offset, .block length) =>
      let (before, _) ← Text.cutAt s.rest offset
      let (_, rest) ← Text.cutAt s.rest (offset + length)
      pure (.inr ⟨true, s.hasCode || !Text.isBlankLine before, rest⟩)

/-- The scan of a line that may take some steps. -/
def byteScan (style : CommentStyle) : Nat → Scan → Checked LineEnd
  | 0, _ => throw .unfinished
  | steps + 1, s => do
    match ← byteStep style s with
    | .inl done => pure done
    | .inr more => byteScan style steps more

variable {style : CommentStyle}

/-- Where the bytes of a marker are found the marker is, and nowhere before. -/
lemma findBytes?_of_after?_eq_some {marker text rest : List Char}
    (h : after? marker text = some rest) : ∃ front, text = front ++ (marker ++ rest) ∧
      Text.findBytes? (Text.utf8 marker) (Text.utf8 text) = some (Text.utf8 front).length := by
  induction text with
  | nil =>
    rw [after?] at h
    split at h
    · next hstarts =>
      cases h
      rw [List.isPrefixOf_iff_prefix, List.prefix_nil] at hstarts
      subst hstarts
      exact ⟨[], rfl, rfl⟩
    · cases h
  | cons c text ih =>
    rw [after?] at h
    split at h
    · next hstarts =>
      cases h
      refine ⟨[], ?_, ?_⟩
      · obtain ⟨back, hback⟩ := List.isPrefixOf_iff_prefix.1 hstarts
        rw [← hback, List.drop_left]
        rfl
      · rw [← Text.isPrefixOf_utf8] at hstarts
        exact Text.findBytes?_of_prefix hstarts
    · next hstarts =>
      obtain ⟨front, htext, hfound⟩ := ih h
      refine ⟨c :: front, congrArg (List.cons c) htext, ?_⟩
      rw [Text.findBytes?_utf8_cons (Bool.eq_false_iff.2 hstarts), hfound, Text.length_utf8_cons,
        Nat.add_comm c.utf8Size]
      rfl

/-- A marker that is nowhere in a text is nowhere in its bytes. -/
lemma findBytes?_of_after?_eq_none {marker text : List Char} (h : after? marker text = none) :
    Text.findBytes? (Text.utf8 marker) (Text.utf8 text) = none := by
  induction text with
  | nil =>
    rw [after?] at h
    split at h
    · cases h
    · next hstarts =>
      rw [← Text.isPrefixOf_utf8] at hstarts
      exact if_neg hstarts
  | cons c text ih =>
    rw [after?] at h
    split at h
    · cases h
    · next hstarts =>
      rw [Text.findBytes?_utf8_cons (Bool.eq_false_iff.2 hstarts), ih h]
      rfl

/-- The text of a marker. -/
def markerText (style : CommentStyle) : Marker → List Char
  | .line => style.lineMarker
  | .block => (style.block.map BlockMarkers.opening).getD []

/-- A marker as it is found by its bytes. -/
def byteMarker (style : CommentStyle) : Marker → ByteMarker
  | .line => .line
  | .block => .block (Text.utf8 (style.markerText .block)).length

/-- A marker that is found at a place stands there with its length. -/
lemma prefix_of_markerAt? {text : List Char} {marker : Marker} {length : Nat}
    (h : style.markerAt? text = some (marker, length)) :
    style.markerText marker <+: text ∧ length = (style.markerText marker).length := by
  rw [markerAt?] at h
  split at h
  · next hstarts =>
    cases h
    exact ⟨List.isPrefixOf_iff_prefix.1 hstarts, rfl⟩
  · split at h
    · next markers hblock =>
      split at h
      · next hstarts =>
        cases h
        rw [markerText, hblock]
        exact ⟨List.isPrefixOf_iff_prefix.1 hstarts, rfl⟩
      · cases h
    · cases h

/-- A cut leaves out the marker only. -/
lemma eq_of_cut? {quoting : Quoting} {text : List Char} {k : Cut}
    (h : style.cut? quoting text = some k) :
    text = k.before ++ (style.markerText k.marker ++ k.after) := by
  induction text generalizing quoting k with
  | nil =>
    rw [cut?] at h
    cases h
  | cons c text ih =>
    have further {quoting : Quoting}
        (h : (style.cut? quoting text).map (fun k => { k with before := c :: k.before }) = some k) :
        c :: text = k.before ++ (style.markerText k.marker ++ k.after) := by
      obtain ⟨k', hk', rfl⟩ := Option.map_eq_some_iff.1 h
      exact congrArg (List.cons c) (ih hk')
    cases quoting with
    | inside quote escaped =>
      rw [cut?] at h
      exact further h
    | outside =>
      rw [cut?] at h
      split at h
      · exact further h
      · split at h
        · next marker length hmarker =>
          cases h
          obtain ⟨⟨back, hback⟩, rfl⟩ := prefix_of_markerAt? hmarker
          rw [← hback, List.drop_left]
          rfl
        · exact further h

/-- A marker is where the cut says it is, when the text that is cut follows another one. -/
def placeOf (style : CommentStyle) (front : List Char) (k : Cut) : Nat × ByteMarker :=
  ((Text.utf8 (front ++ k.before)).length, style.byteMarker k.marker)

/-- The search by offsets finds the marker that the text from there on is cut at. -/
lemma firstMarker_eq (quoting : Quoting) (front tail : List Char) :
    firstMarker style (front ++ tail) quoting (Text.charOffsets (Text.utf8 front).length tail)
      = .ok ((style.cut? quoting tail).map (style.placeOf front)) := by
  induction tail generalizing quoting front with
  | nil =>
    rw [cut?]
    rfl
  | cons c rest ih =>
    have further (quoting : Quoting) :
        firstMarker style (front ++ c :: rest) quoting
            (Text.charOffsets ((Text.utf8 front).length + c.utf8Size) rest)
          = .ok (((style.cut? quoting rest).map fun k => { k with before := c :: k.before }).map
              (style.placeOf front)) := by
      have hlength : (Text.utf8 front).length + c.utf8Size = (Text.utf8 (front ++ [c])).length := by
        rw [Text.utf8_append, List.length_append, Text.length_utf8_cons]
        rfl
      have hplace : style.placeOf front ∘ (fun k => { k with before := c :: k.before })
          = style.placeOf (front ++ [c]) := by
        funext k
        rw [Function.comp_apply, placeOf, placeOf, List.append_assoc]
        rfl
      rw [hlength, List.append_cons, ih, Option.map_map, hplace]
    rw [Text.charOffsets]
    cases quoting with
    | inside quote escaped =>
      rw [firstMarker, cut?]
      exact further _
    | outside =>
      rw [firstMarker, cut?]
      split
      · exact further _
      · rw [Text.cutAt_append, markerAt?]
        show (if (Text.utf8 style.lineMarker).isPrefixOf (Text.utf8 (c :: rest)) then _ else _) = _
        rw [Text.isPrefixOf_utf8]
        cases style.lineMarker.isPrefixOf (c :: rest) with
        | true =>
          rw [if_pos rfl, if_pos rfl, Option.map_some, placeOf, List.append_nil]
          rfl
        | false =>
          rw [if_neg Bool.false_ne_true, if_neg Bool.false_ne_true]
          cases hblock : style.block with
          | none => exact further .outside
          | some markers =>
            dsimp only
            rw [Text.isPrefixOf_utf8]
            cases markers.opening.isPrefixOf (c :: rest) with
            | true =>
              rw [if_pos rfl, if_pos rfl, Option.map_some, placeOf, List.append_nil, byteMarker,
                markerText, hblock]
              rfl
            | false => exact further .outside

/-- A step stays between characters, and comes to what the step through the characters comes to. -/
lemma byteStep_eq (s : Scan) : byteStep style s = .ok (style.step s) := by
  obtain ⟨inBlock, hasCode, text⟩ := s
  rw [byteStep, step]
  cases inBlock with
  | true =>
    rw [if_pos rfl, if_pos rfl]
    cases style.block with
    | none => rfl
    | some markers =>
      dsimp only
      cases hafter : after? markers.closing text with
      | none =>
        rw [findBytes?_of_after?_eq_none hafter]
        rfl
      | some rest =>
        obtain ⟨front, htext, hfound⟩ := findBytes?_of_after?_eq_some hafter
        rw [hfound, htext]
        exact Checked.bind_eq_ok (Text.cutAt_append_append front markers.closing rest) rfl
  | false =>
    rw [if_neg Bool.false_ne_true, if_neg Bool.false_ne_true]
    have hfirst : firstMarker style text .outside (Text.charOffsets 0 text)
        = .ok ((style.cut? .outside text).map (style.placeOf [])) :=
      firstMarker_eq .outside [] text
    cases hk : style.cut? .outside text with
    | none =>
      rw [hk] at hfirst
      exact Checked.bind_eq_ok hfirst rfl
    | some k =>
      have htext := eq_of_cut? hk
      obtain ⟨before, marker, rest⟩ := k
      dsimp only at htext
      rw [hk] at hfirst
      apply Checked.bind_eq_ok hfirst
      rw [htext]
      cases marker with
      | line => exact Checked.bind_eq_ok (Text.cutAt_append before _) rfl
      | block =>
        apply Checked.bind_eq_ok (Text.cutAt_append before _)
        exact Checked.bind_eq_ok (Text.cutAt_append_append before _ rest) rfl

/-- A scan that may take more steps than its measure comes to its end. -/
lemma byteScan_eq {steps : Nat} {s : Scan} (h : style.measure s < steps) :
    byteScan style steps s = .ok (style.scan s) := by
  induction steps generalizing s with
  | zero => exact absurd h (Nat.not_lt_zero _)
  | succ steps ih =>
    apply Checked.bind_eq_ok (byteStep_eq s)
    rw [scan]
    split
    · next done hstep =>
      rw [hstep]
      rfl
    · next more hstep =>
      rw [hstep]
      exact ih (Nat.lt_of_lt_of_le (measure_step hstep) (Nat.le_of_lt_succ h))

/-- The measure of a scan is within twice the rest of the line. -/
lemma measure_lt (s : Scan) : style.measure s < 2 * s.rest.length + 2 := by
  apply Nat.lt_succ_of_le
  apply Nat.add_le_add_left
  split
  · exact Nat.zero_le 1
  · split
    · exact Nat.le_refl 1
    · exact Nat.zero_le 1

end CommentStyle

namespace LineCounts

/-- One more line, scanned with two steps for each of its characters and two more. -/
def byteAddLine (style : CommentStyle) (state : LineCounts × Bool) (line : Text.Line) :
    Checked (LineCounts × Bool) :=
  if Text.isBlankLine line then pure ({ state.1 with blank := state.1.blank + 1 }, state.2)
  else do
    match ← style.byteScan (2 * line.length + 2) ⟨state.2, false, line⟩ with
    | ⟨true, stillIn⟩ => pure ({ state.1 with code := state.1.code + 1 }, stillIn)
    | ⟨false, stillIn⟩ => pure ({ state.1 with comment := state.1.comment + 1 }, stillIn)

/-- The counts of a source whose lines are scanned by offsets. -/
def byteCount (style : CommentStyle) (source : String) : Checked LineCounts := do
  let (counts, _) ← (Text.lines source.toList).foldlM (byteAddLine style) ({}, false)
  pure counts

/-- The scan of a line in bytes is the scan of it. -/
lemma byteAddLine_eq (style : CommentStyle) (state : LineCounts × Bool) (line : Text.Line) :
    byteAddLine style state line = .ok (addLine style state.1 state.2 line) := by
  rw [byteAddLine, addLine]
  cases Text.isBlankLine line with
  | true => rfl
  | false =>
    rw [if_neg Bool.false_ne_true, if_neg Bool.false_ne_true]
    apply Checked.bind_eq_ok (CommentStyle.byteScan_eq (CommentStyle.measure_lt _))
    obtain ⟨hasCode, stillIn⟩ := style.scan ⟨state.2, false, line⟩
    cases hasCode with
    | true => rfl
    | false => rfl

/-- A scan of any line, with a block comment open before it or not, ends within two steps for each
character and two more, and cuts the line between characters only. So every source has its counts. -/
theorem byteCount_total (style : CommentStyle) :
    (∀ (inBlock : Bool) (line : List Char) (more : Nat),
      style.byteScan (2 * line.length + 2 + more) ⟨inBlock, false, line⟩
        = .ok (style.scan ⟨inBlock, false, line⟩)) ∧
    ∀ source : String, byteCount style source = .ok (ofSource style source) := by
  constructor
  · intro inBlock line more
    exact CommentStyle.byteScan_eq (Nat.lt_add_right more (CommentStyle.measure_lt _))
  · intro source
    have hstep : ∀ state, ∀ line ∈ Text.lines source.toList,
        byteAddLine style state line = .ok (addLine style state.1 state.2 line) :=
      fun state line _ => byteAddLine_eq style state line
    exact Checked.bind_eq_ok (Checked.foldlM_eq_ok hstep ({}, false)) rfl

/-- A block comment whose opening marker is empty, around characters of several bytes. -/
example : CommentStyle.byteScan ⟨['§'], some ⟨[], ['»', '*'], .inr (List.cons_ne_nil _ _)⟩, ['ß']⟩ 9
    ⟨false, false, ['ß', '»', 'é', 'ß', '→', '»', '*', '😀']⟩ = .ok ⟨true, true⟩ := by
  decide

end LineCounts

end CodeAudit
