import CodeAudit.Proofs.Duplicate.Chains
import CodeAudit.Proofs.Duplicate.Copies
/-!
# Blocks are maximal and complete

The places of a text are complete if they are all those where a window has that text. Each window of
a block stands at complete places, no block goes on where another one ends, and the blocks are
the maximal chains of complete places: a stretch of lines that is copied as a whole, with windows that
occur nowhere else, is in one block, and not in one block for each of its windows.

What a window's text is can be told by its trimmed lines, if the hash does not collide, or by the
hash itself.
-/
namespace CodeAudit.Duplicate

/-- The places where the copies of a block start, counted from zero. -/
def Block.starts (files : List SourceText) (b : Block) : List Occurrence :=
  b.locations.map fun l => ⟨l.fileNumber files, l.startLine - 1⟩

/-- All places of the windows that are not blank and have a text, in their order. -/
structure AllWith {α : Type} (files : List SourceText) (size : Nat) (text : SourceText → Nat → α)
    (x : α) (places : List Occurrence) : Prop where
  ordered : places.Pairwise fun o p => o.before p = true
  mem_iff : ∀ o, o ∈ places ↔
    ∃ f, files[o.file]? = some f ∧ f.HasWindow size o.start ∧ text f o.start = x

/-- All places of a text that has enough of them to be copied. -/
def Copied {α : Type} (enough : List Occurrence → Prop) (files : List SourceText) (size : Nat)
    (text : SourceText → Nat → α) (places : List Occurrence) : Prop :=
  (∃ x, AllWith files size text x places) ∧ enough places

def Twice (places : List Occurrence) : Prop :=
  2 ≤ places.length

def InTwoFiles (places : List Occurrence) : Prop :=
  ∃ o ∈ places, ∃ p ∈ places, o.file ≠ p.file

/-- Blocks whose windows are complete, and which are the maximal chains of complete windows. -/
structure MergesLockstep (files : List SourceText) (size : Nat)
    (complete : List Occurrence → Prop) (blocks : List Block) : Prop where
  long : ∀ b ∈ blocks, size ≤ b.lines
  windows : ∀ b ∈ blocks, ∀ e, e + size ≤ b.lines → complete (below (b.starts files) e)
  apart : ∀ a ∈ blocks, ∀ b ∈ blocks,
    b.starts files ≠ below (a.starts files) (a.lines - size + 1)
  chains : ∀ starts extension, MaximalChain complete starts extension ↔
    ∃ b ∈ blocks, b.starts files = starts ∧ b.lines = size + extension
  once : (blocks.map (Block.starts files)).Nodup
  /-- The windows of a stretch of lines are in one block, and in no other one. -/
  stretch : ∀ starts lines, size ≤ lines → (∀ e, e + size ≤ lines → complete (below starts e)) →
    ∃ b ∈ blocks, (∃ d, below (b.starts files) d = starts ∧ d + lines ≤ b.lines) ∧
      ∀ c ∈ blocks, ∀ d e, d + size ≤ c.lines → e + size ≤ lines →
        below (c.starts files) d = below starts e → c = b
  /-- If there are no others, that block is the only one. -/
  single : ∀ starts lines, size ≤ lines →
    (∀ places, complete places ↔ ∃ e, e + size ≤ lines ∧ below starts e = places) →
    ∃ b, blocks = [b] ∧ b.starts files = starts ∧ b.lines = lines

def PassesMerge {α : Type} (files : List SourceText) (size : Nat) (text : SourceText → Nat → α) :
    Prop :=
  (∀ f ∈ files, MergesLockstep [f] size (Copied Twice [f] size text) (withinFile f size)) ∧
    MergesLockstep (distinctFiles files) size (Copied InTwoFiles (distinctFiles files) size text)
      (acrossFiles files size)

/-- All windows with the text of one of a block's windows are among the places of that window. -/
def LeavesOutNone (files : List SourceText) (size : Nat) (blocks : List Block) : Prop :=
  ∀ b ∈ blocks, ∀ e, e + size ≤ b.lines → ∀ o ∈ below (b.starts files) e, ∀ p f g,
    files[o.file]? = some f → files[p.file]? = some g → p.start + size ≤ g.lines.length →
    g.trimmed size p.start = f.trimmed size o.start → p ∈ below (b.starts files) e

section Complete

/-- Two lists of the same places, both in order, are one list. -/
lemma Occurrence.eq_of_ordered {places others : List Occurrence}
    (h : places.Pairwise fun o p => o.before p = true)
    (h' : others.Pairwise fun o p => o.before p = true) (hmem : ∀ o, o ∈ places ↔ o ∈ others) :
    places = others := by
  have : Std.Irrefl fun o p : Occurrence => o.before p = true :=
    ⟨fun o hbefore => by rw [before_iff] at hbefore; omega⟩
  have : Std.Antisymm fun o p : Occurrence => o.before p = true :=
    ⟨fun o p hop hpo => by rw [before_iff] at hop hpo; omega⟩
  exact h.eq_of_mem_iff h' hmem

variable {α β : Type} {files : List SourceText} {size : Nat} {places : List Occurrence}

/-- Places that are complete for one text are complete for another one that tells windows apart alike. -/
lemma AllWith.congr {text : SourceText → Nat → α} {other : SourceText → Nat → β}
    (h : ∀ f ∈ files, ∀ g ∈ files, ∀ s t, f.HasWindow size s → g.HasWindow size t →
      (text f s = text g t ↔ other f s = other g t))
    (hne : places ≠ []) {x : α} (hall : AllWith files size text x places) :
    ∃ y, AllWith files size other y places := by
  obtain ⟨o, ho⟩ := List.exists_mem_of_ne_nil places hne
  obtain ⟨f, hf, hwindow, rfl⟩ := (hall.mem_iff o).1 ho
  refine ⟨other f o.start, hall.ordered, fun p => ?_⟩
  rw [hall.mem_iff]
  have hother {g : SourceText} (hg : files[p.file]? = some g) (hwindow' : g.HasWindow size p.start) :
      text g p.start = text f o.start ↔ other g p.start = other f o.start :=
    h g (List.mem_of_getElem? hg) f (List.mem_of_getElem? hf) _ _ hwindow' hwindow
  constructor
  · rintro ⟨g, hg, hwindow', htext⟩
    exact ⟨g, hg, hwindow', (hother hg hwindow').1 htext⟩
  · rintro ⟨g, hg, hwindow', htext⟩
    exact ⟨g, hg, hwindow', (hother hg hwindow').2 htext⟩

/-- The places that are complete for a hash are those of a group. -/
lemma exists_allWith_hashAt_iff (hne : places ≠ []) :
    (∃ x, AllWith files size (fun f s => f.hashAt size s) x places) ↔
      ∃ g ∈ groups files size, g.starts = places := by
  constructor
  · rintro ⟨x, hall⟩
    have hplaces : places = placesOf (hashedWindows files size) x := by
      apply Occurrence.eq_of_ordered hall.ordered
      · exact (hashedWindows_pairwise files size).sublist (List.filter_sublist.map _)
      · intro o
        rw [hall.mem_iff, mem_placesOf, mem_hashedWindows]
    exact ⟨⟨x, places⟩, mem_groups_iff.2 ⟨hplaces, hne⟩, rfl⟩
  · rintro ⟨g, hg, rfl⟩
    refine ⟨g.hash, starts_pairwise_of_mem_groups hg, fun o => ?_⟩
    rw [(mem_groups_iff.1 hg).1, mem_placesOf, mem_hashedWindows]

end Complete

section Blocks

variable {files : List SourceText} {size : Nat} {gs : List Group}

/-- The blocks of merged groups are the maximal chains of the groups. -/
lemma mergesLockstep_merge (h : InOrder gs)
    (hstarts : ∀ r ∈ Run.merge gs, (r.toBlock files size).starts files = r.starts) :
    MergesLockstep files size (fun places => ∃ g ∈ gs, g.starts = places)
      ((Run.merge gs).map (Run.toBlock files size)) := by
  have hlines (r : Run) : (r.toBlock files size).lines = size + r.extension := rfl
  constructor
  case long =>
    intro b hb
    obtain ⟨r, hr, rfl⟩ := List.mem_map.1 hb
    exact Nat.le_add_right _ _
  case windows =>
    intro b hb e he
    obtain ⟨r, hr, rfl⟩ := List.mem_map.1 hb
    rw [hlines] at he
    rw [hstarts r hr]
    exact Run.exists_group_of_window hr (by omega)
  case apart =>
    intro a ha b hb heq
    obtain ⟨r, hr, rfl⟩ := List.mem_map.1 ha
    obtain ⟨s, hs, rfl⟩ := List.mem_map.1 hb
    rw [hstarts r hr, hstarts s hs, hlines, Nat.add_sub_cancel_left] at heq
    obtain ⟨g, hg, hfirst⟩ := Run.exists_group_of_starts hs
    exact Run.next_ne_of_mem_merge h hr hg (heq.symm.trans hfirst.symm)
  case chains =>
    intro starts extension
    rw [Run.maximalChain_iff h]
    constructor
    · rintro ⟨r, hr, rfl, rfl⟩
      exact ⟨_, List.mem_map_of_mem hr, hstarts r hr, rfl⟩
    · rintro ⟨b, hb, rfl, hextension⟩
      obtain ⟨r, hr, rfl⟩ := List.mem_map.1 hb
      exact ⟨r, hr, (hstarts r hr).symm, Nat.add_left_cancel hextension⟩
  case once =>
    have hmap : (Run.merge gs).map (Block.starts files ∘ Run.toBlock files size)
        = (Run.merge gs).map Run.starts := List.map_congr_left hstarts
    rw [List.map_map, hmap]
    exact Run.starts_nodup h
  case stretch =>
    intro starts lines hle hwindows
    obtain ⟨extension, rfl⟩ := Nat.exists_eq_add_of_le hle
    have hchain : ∀ e ≤ extension, ∃ g ∈ gs, g.starts = below starts e :=
      fun e he => hwindows e (by omega)
    obtain ⟨r, hr, d, rfl, hd⟩ := Run.exists_run_of_chain h hchain
    refine ⟨_, List.mem_map_of_mem hr, ⟨d, ?_, ?_⟩, ?_⟩
    · rw [hstarts r hr]
    · rw [hlines]
      omega
    · intro c hc d' e hd' he heq
      obtain ⟨s, hs, rfl⟩ := List.mem_map.1 hc
      rw [hlines] at hd'
      rw [hstarts s hs, below_below] at heq
      rw [(Run.window_unique h hs hr (by omega) (by omega) heq).1]
  case single =>
    intro starts lines hle hall
    obtain ⟨extension, rfl⟩ := Nat.exists_eq_add_of_le hle
    have hchain (places : List Occurrence) :
        (∃ g ∈ gs, g.starts = places) ↔ ∃ e ≤ extension, below starts e = places := by
      rw [hall places]
      refine exists_congr fun e => and_congr_left fun _ => ?_
      omega
    obtain ⟨r, hmerge, rfl, rfl⟩ := Run.merge_eq_singleton h hchain
    refine ⟨r.toBlock files size, ?_, hstarts r ?_, rfl⟩
    · rw [hmerge, List.map_singleton]
    · rw [hmerge]
      exact List.mem_singleton_self r

end Blocks

section Detect

variable {files : List SourceText} {size : Nat} {keep : Group → Bool}

/-- The groups stand in the order in which merging needs them. -/
lemma inOrder_mergeSort :
    InOrder (((groups files size).filter keep).mergeSort Group.le) where
  some g hg := by
    rw [List.mem_mergeSort] at hg
    exact (mem_groups_iff.1 (List.mem_of_mem_filter hg)).2
  different := by
    rw [((List.mergeSort_perm _ _).map _).nodup_iff]
    have hgroups : ((groups files size).map Group.starts).Nodup := by
      refine List.pairwise_map.2 ((List.nodup_flatMap.1 groups_starts_nodup).2.imp_of_mem ?_)
      intro g h hg _ hdisjoint heq
      obtain ⟨o, ho⟩ := List.exists_mem_of_ne_nil _ (mem_groups_iff.1 hg).2
      exact hdisjoint ho (heq ▸ ho)
    exact hgroups.sublist (List.filter_sublist.map _)
  forward := by
    refine (List.pairwise_mergeSort Group.le_trans Group.le_total _).imp_of_mem ?_
    intro g h _ hh hle heq
    rw [List.mem_mergeSort] at hh
    obtain ⟨o, rest, hstarts⟩ :=
      List.exists_cons_of_ne_nil (mem_groups_iff.1 (List.mem_of_mem_filter hh)).2
    -- the first place of what goes on from a group is after the first place of the group
    rw [Group.le_iff, ← heq, hstarts] at hle
    obtain ⟨p, hp, hbefore⟩ := hle (o.shift 1) rfl
    obtain rfl := Option.some.inj hp
    rw [← Bool.not_eq_true, Occurrence.before_iff] at hbefore
    exact hbefore (Or.inr ⟨rfl, Nat.lt_succ_self _⟩)

/-- A place of a run is in the file that its location names. -/
lemma fileNumber_eq (hpaths : files.Pairwise fun f g => f.path.same g.path = false) {r : Run}
    (hr : r ∈ runsOf files size keep) {o : Occurrence} (ho : o ∈ r.starts) :
    (r.locationAt files size o).fileNumber files = o.file := by
  obtain ⟨f, hf⟩ := getElem?_file_of_mem_starts hr ho
  have hdistinct : distinctFiles files = files := Path.firsts_eq_self SourceText.path hpaths
  have hfound : files[(r.locationAt (distinctFiles files) size o).fileNumber files]? = some f :=
    fileNumber_locationAt (hdistinct.symm ▸ hf)
  rw [hdistinct] at hfound
  have hnodup : (files.map SourceText.path).Nodup := hdistinct ▸ distinctFiles_paths_nodup files
  exact eq_of_pathAt_eq hnodup hf hfound rfl

/-- The starts of a run can be read off its block. -/
lemma starts_toBlock (hpaths : files.Pairwise fun f g => f.path.same g.path = false) {r : Run}
    (hr : r ∈ runsOf files size keep) : (r.toBlock files size).starts files = r.starts := by
  rw [Block.starts, Run.locations_toBlock, List.map_map]
  calc r.starts.map _
    _ = r.starts.map id := by
      apply List.map_congr_left
      intro o ho
      rw [Function.comp_apply, fileNumber_eq hpaths hr ho]
      rfl
    _ = r.starts := List.map_id _

/-- The blocks that are detected are the maximal chains of the groups that are kept. -/
lemma mergesLockstep_detect (hsize : 1 ≤ size)
    (hpaths : files.Pairwise fun f g => f.path.same g.path = false)
    {complete : List Occurrence → Prop}
    (hcomplete : ∀ places, complete places ↔
      ∃ g ∈ groups files size, keep g = true ∧ g.starts = places) :
    MergesLockstep files size complete (detect files size keep) := by
  have hgroups : complete = fun places =>
      ∃ g ∈ ((groups files size).filter keep).mergeSort Group.le, g.starts = places := by
    funext places
    simp only [hcomplete, List.mem_mergeSort, List.mem_filter, and_assoc]
  rw [detect_eq_map_runsOf hsize, hgroups]
  exact mergesLockstep_merge inOrder_mergeSort fun r hr => starts_toBlock hpaths hr

/-- If the groups that are kept are those with enough places, the blocks merge what is copied. -/
lemma mergesLockstep_copied {α : Type} {text : SourceText → Nat → α}
    {enough : List Occurrence → Prop} (hsize : 1 ≤ size)
    (hpaths : files.Pairwise fun f g => f.path.same g.path = false)
    (htext : ∀ f ∈ files, ∀ g ∈ files, ∀ s t, f.HasWindow size s → g.HasWindow size t →
      (f.hashAt size s = g.hashAt size t ↔ text f s = text g t))
    (hkeep : ∀ g, keep g = true ↔ enough g.starts) (hne : ∀ places, enough places → places ≠ []) :
    MergesLockstep files size (Copied enough files size text) (detect files size keep) := by
  apply mergesLockstep_detect hsize hpaths
  intro places
  constructor
  · rintro ⟨⟨x, hall⟩, henough⟩
    have hhash := hall.congr (fun f hf g hg s t hs ht => (htext f hf g hg s t hs ht).symm)
      (hne places henough)
    obtain ⟨g, hg, rfl⟩ := (exists_allWith_hashAt_iff (hne places henough)).1 hhash
    exact ⟨g, hg, (hkeep g).2 henough, rfl⟩
  · rintro ⟨g, hg, hkept, rfl⟩
    have henough : enough g.starts := (hkeep g).1 hkept
    obtain ⟨x, hall⟩ := (exists_allWith_hashAt_iff (hne _ henough)).2 ⟨g, hg, rfl⟩
    exact ⟨hall.congr htext (hne _ henough), henough⟩

end Detect

/-- Both passes merge the windows of a text that tells windows apart as the hash does. -/
lemma passesMerge_of_hashAt {α : Type} {text : SourceText → Nat → α} {files : List SourceText}
    {size : Nat} (hsize : 1 ≤ size)
    (htext : ∀ f ∈ files, ∀ g ∈ files, ∀ s t, f.HasWindow size s → g.HasWindow size t →
      (f.hashAt size s = g.hashAt size t ↔ text f s = text g t)) :
    PassesMerge files size text := by
  constructor
  · intro f hf
    apply mergesLockstep_copied hsize (List.pairwise_singleton _ _)
    case htext =>
      intro g hg g' hg'
      rw [List.mem_singleton.1 hg, List.mem_singleton.1 hg']
      exact htext f hf f hf
    case hkeep => exact fun g => decide_eq_true_iff
    case hne =>
      rintro places (htwice : 2 ≤ places.length)
      exact List.ne_nil_of_length_pos (by omega)
  · apply mergesLockstep_copied hsize (Path.firsts_pairwise SourceText.path files)
    case htext =>
      have hsub : distinctFiles files ⊆ files := Path.firsts_subset SourceText.path files
      exact fun f hf g hg => htext f (hsub hf) g (hsub hg)
    case hkeep => exact fun g => decide_eq_true_iff.trans two_le_fileCount_iff
    case hne =>
      rintro places ⟨o, ho, -⟩
      exact List.ne_nil_of_mem ho

/-- Windows with one text have one hash, so completeness for the hash leaves out none of them. -/
lemma MergesLockstep.leavesOutNone {files : List SourceText} {size : Nat}
    {enough : List Occurrence → Prop} {blocks : List Block}
    (h : MergesLockstep files size (Copied enough files size fun f start => f.hashAt size start)
      blocks) : LeavesOutNone files size blocks := by
  intro b hb e he o ho p f g hf hg hfits htrimmed
  obtain ⟨⟨x, hall⟩, -⟩ := h.windows b hb e he
  obtain ⟨f', hf', hwindow, hhash⟩ := (hall.mem_iff o).1 ho
  obtain rfl : f = f' := Option.some.inj (hf.symm.trans hf')
  have hwindow' : g.HasWindow size p.start := ⟨hfits, htrimmed ▸ hwindow.notBlank⟩
  exact (hall.mem_iff p).2 ⟨g, hg, hwindow', (hashAt_congr htrimmed).trans hhash⟩

/--
In either pass the blocks are the maximal chains of the complete places of the windows. Windows are
told by their hashes, and by their trimmed lines if the hash does not collide; even if it does, no
window with the same lines is left out.
-/
theorem blocks_maximal_chains (files : List SourceText) (size : Nat) (hsize : 1 ≤ size) :
    PassesMerge files size (fun f start => f.hashAt size start) ∧
      (HashesApart files size → PassesMerge files size fun f start => f.trimmed size start) ∧
      (∀ f ∈ files, LeavesOutNone [f] size (withinFile f size)) ∧
      LeavesOutNone (distinctFiles files) size (acrossFiles files size) := by
  have hhash : PassesMerge files size fun f start => f.hashAt size start :=
    passesMerge_of_hashAt hsize fun _ _ _ _ _ _ _ _ => Iff.rfl
  refine ⟨hhash, fun apart => ?_, fun f hf => (hhash.1 f hf).leavesOutNone, hhash.2.leavesOutNone⟩
  apply passesMerge_of_hashAt hsize
  intro f hf g hg s t hs ht
  exact hashAt_eq_iff apart hf hg hs.fits ht.fits

/-- The places in a single file that have a text are its starts with that text. -/
lemma allWith_singleton {α : Type} [DecidableEq α] (f : SourceText) (size : Nat)
    (text : SourceText → Nat → α) (x : α) :
    AllWith [f] size text x
      (((scannedStarts f.lines size).filter fun start => text f start = x).map fun start =>
        ⟨0, start⟩) := by
  constructor
  case ordered =>
    refine List.pairwise_map.2 (((scannedStarts_pairwise _ size).filter _).imp fun hlt => ?_)
    exact Occurrence.before_iff.2 (Or.inr ⟨rfl, hlt⟩)
  case mem_iff =>
    rintro ⟨i, start⟩
    simp only [List.mem_map, List.mem_filter, mem_scannedStarts, decide_eq_true_eq,
      Occurrence.mk.injEq]
    constructor
    · rintro ⟨s, ⟨hwindow, htext⟩, rfl, rfl⟩
      exact ⟨f, rfl, hwindow, htext⟩
    · rintro ⟨g, hg, hwindow, htext⟩
      cases i with
      | zero =>
        obtain rfl := Option.some.inj hg
        exact ⟨start, ⟨hwindow, htext⟩, rfl, rfl⟩
      | succ i => cases hg

/-- The overlapping copies in the periodic text are one block of three lines. -/
theorem periodicFiles_maximal_chain :
    (1 ≤ 2 ∧ HashesApart periodicFiles 2) ∧ ∃ f ∈ periodicFiles,
      ∃ b ∈ withinFile f 2, b.starts [f] = [⟨0, 0⟩, ⟨0, 2⟩] ∧ b.lines = 3 := by
  have hsize : 1 ≤ 2 := by decide
  have apart : HashesApart periodicFiles 2 := periodicFiles_apart
  obtain ⟨-, hmerge, -⟩ := blocks_maximal_chains periodicFiles 2 hsize
  let text : SourceText := ⟨⟨"a.ts"⟩, "p\n\tq\np\nq\np\n"⟩
  have hmem : text ∈ periodicFiles := List.mem_cons_self
  refine ⟨⟨hsize, apart⟩, text, hmem, ?_⟩
  let places (x : List Text.Line) : List Occurrence :=
    ((scannedStarts text.lines 2).filter fun start => text.trimmed 2 start = x).map (⟨0, ·⟩)
  have hplaces (x : List Text.Line) :
      AllWith [text] 2 (fun f start => f.trimmed 2 start) x (places x) :=
    allWith_singleton text 2 _ x
  have hchain : MaximalChain (Copied Twice [text] 2 fun f start => f.trimmed 2 start)
      [⟨0, 0⟩, ⟨0, 2⟩] 1 := by
    constructor
    case windows =>
      intro e he
      obtain rfl | rfl : e = 0 ∨ e = 1 := by omega
      · have hfirst : places [['p'], ['q']] = below [⟨0, 0⟩, ⟨0, 2⟩] 0 := by decide +kernel
        exact ⟨⟨_, hfirst ▸ hplaces _⟩, le_refl 2⟩
      · have hsecond : places [['q'], ['p']] = below [⟨0, 0⟩, ⟨0, 2⟩] 1 := by decide +kernel
        exact ⟨⟨_, hsecond ▸ hplaces _⟩, le_refl 2⟩
    case first =>
      intro others _ heq
      cases others with
      | nil => cases heq
      | cons o rest => exact Nat.succ_ne_zero _ (Occurrence.mk.inj (List.cons.inj heq).1).2
    case last =>
      rintro ⟨⟨x, hlast⟩, -⟩
      obtain ⟨f, hf, hwindow, -⟩ := (hlast.mem_iff ⟨0, 4⟩).1 (by decide)
      obtain rfl := Option.some.inj hf
      exact absurd hwindow.fits (by decide +kernel)
  exact (((hmerge apart).1 text hmem).chains _ 1).1 hchain

end CodeAudit.Duplicate
