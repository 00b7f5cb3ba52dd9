import CodeAudit.Proofs.Duplicate.Maximality
/-!
# The order of the files does not count

Places carry the numbers of their files, and by these numbers groups are sorted and merged. If the
files are listed in another order, every group has the same places in the same files, under other
numbers. As places that stand in order are told by what they are, chains of groups stay chains and
maximal ones stay maximal: the blocks across files come out the same, but for the order of the blocks
and that of the locations in each of them.
-/
namespace CodeAudit.Duplicate

/-- A place with its file instead of the file's number. -/
def Occurrence.resolve (files : List SourceText) (o : Occurrence) : Option SourceText × Nat :=
  (files[o.file]?, o.start)

/-- Places in some of the files, in their order. -/
structure Laid (files : List SourceText) (places : List Occurrence) : Prop where
  ordered : places.Pairwise fun o p => o.before p = true
  inside : ∀ o ∈ places, o.file < files.length

/-- Places in some files, and the same places with the files in another order. -/
structure Renumbered (files files' : List SourceText) (places places' : List Occurrence) :
    Prop where
  laid : Laid files places
  laid' : Laid files' places'
  same : (places.map (Occurrence.resolve files)).Perm (places'.map (Occurrence.resolve files'))

section Places

variable {files files' : List SourceText} {places places' others : List Occurrence}
  {o p : Occurrence}

/-- A place in one of some different files is told by its file. -/
lemma Occurrence.eq_of_resolve_eq (hfiles : files.Nodup) (ho : o.file < files.length)
    (h : o.resolve files = p.resolve files) : o = p := by
  obtain ⟨hfile, hstart⟩ := Prod.mk.inj h
  exact Occurrence.mk.injEq .. ▸ ⟨(List.getElem?_inj ho hfiles).1 hfile, hstart⟩

/-- Places below laid ones are laid. -/
lemma Laid.below (h : Laid files places) (lines : Nat) : Laid files (below places lines) := by
  constructor
  case ordered =>
    refine List.pairwise_map.2 (h.ordered.imp fun {o p} hbefore => ?_)
    rw [Occurrence.before_iff] at hbefore ⊢
    show o.file < p.file ∨ o.file = p.file ∧ o.start + lines < p.start + lines
    omega
  case inside =>
    intro p hp
    obtain ⟨o, ho, rfl⟩ := List.mem_map.1 hp
    exact h.inside o ho

namespace Renumbered

/-- What is renumbered one way is renumbered back. -/
lemma symm (h : Renumbered files files' places places') : Renumbered files' files places' places :=
  ⟨h.laid', h.laid, h.same.symm⟩

/-- What is below renumbered places is renumbered. -/
lemma below (h : Renumbered files files' places places') (lines : Nat) :
    Renumbered files files' (below places lines) (below places' lines) := by
  have hresolve (files : List SourceText) (places : List Occurrence) :
      (Duplicate.below places lines).map (Occurrence.resolve files)
        = (places.map (Occurrence.resolve files)).map fun w => (w.1, w.2 + lines) := by
    rw [Duplicate.below, List.map_map, List.map_map]
    rfl
  refine ⟨h.laid.below lines, h.laid'.below lines, ?_⟩
  rw [hresolve, hresolve]
  exact h.same.map _

/-- Each place has its like after a renumbering. -/
lemma exists_resolve_eq (h : Renumbered files files' places places') (ho : o ∈ places) :
    ∃ o' ∈ places', o'.resolve files' = o.resolve files :=
  List.mem_map.1 (h.same.mem_iff.1 (List.mem_map_of_mem ho))

/-- The other order of the files tells the places. -/
lemma eq_right (hfiles : files'.Nodup) (h : Renumbered files files' places places')
    (h' : Renumbered files files' places others) : places' = others := by
  have hsub {places' others : List Occurrence} (h : Renumbered files files' places places')
      (h' : Renumbered files files' places others) : places' ⊆ others := by
    intro o ho
    obtain ⟨p, hp, hresolve⟩ := h.symm.exists_resolve_eq ho
    obtain ⟨q, hq, hresolve'⟩ := h'.exists_resolve_eq hp
    have heq : o = q :=
      Occurrence.eq_of_resolve_eq hfiles (h.laid'.inside o ho) (hresolve'.trans hresolve).symm
    exact heq ▸ hq
  exact Occurrence.eq_of_ordered h.laid'.ordered h'.laid'.ordered
    fun o => ⟨fun ho => hsub h h' ho, fun ho => hsub h' h ho⟩

/-- Places in two files are in two files after a renumbering. -/
lemma inTwoFiles (hfiles : files.Nodup) (h : Renumbered files files' places places')
    (htwo : InTwoFiles places) : InTwoFiles places' := by
  obtain ⟨o, ho, p, hp, hne⟩ := htwo
  obtain ⟨o', ho', hresolve⟩ := h.exists_resolve_eq ho
  obtain ⟨p', hp', hresolve'⟩ := h.exists_resolve_eq hp
  refine ⟨o', ho', p', hp', fun heq => hne ?_⟩
  have hfile : files[o.file]? = files[p.file]? :=
    calc files[o.file]?
      _ = files'[o'.file]? := (congrArg Prod.fst hresolve).symm
      _ = files'[p'.file]? := by rw [heq]
      _ = files[p.file]? := congrArg Prod.fst hresolve'
  exact (List.getElem?_inj (h.laid.inside o ho) hfiles).1 hfile

end Renumbered

/-- Chains that are maximal stay so if the places that are complete are the same ones. -/
lemma MaximalChain.renumber {complete complete' : List Occurrence → Prop} (hfiles : files.Nodup)
    (hfiles' : files'.Nodup)
    (hforth : ∀ places, complete places →
      ∃ places', complete' places' ∧ Renumbered files files' places places')
    (hback : ∀ places', complete' places' →
      ∃ places, complete places ∧ Renumbered files' files places' places)
    {extension : Nat} (h : MaximalChain complete places extension) :
    ∃ places', Renumbered files files' places places' ∧
      MaximalChain complete' places' extension := by
  obtain ⟨places', -, hplaces⟩ := hforth _ (h.windows 0 (Nat.zero_le _))
  rw [below_zero] at hplaces
  refine ⟨places', hplaces, ?_⟩
  constructor
  case windows =>
    intro e he
    obtain ⟨window, hcomplete, hwindow⟩ := hforth _ (h.windows e he)
    rwa [(hplaces.below e).eq_right hfiles' hwindow]
  case first =>
    rintro others' hothers' rfl
    obtain ⟨others, hcomplete, hothers⟩ := hback _ hothers'
    exact h.first others hcomplete ((hothers.below 1).eq_right hfiles hplaces.symm)
  case last =>
    intro hlast
    obtain ⟨window, hcomplete, hwindow⟩ := hback _ hlast
    apply h.last
    rwa [(hplaces.below (extension + 1)).symm.eq_right hfiles hwindow]

end Places

section Groups

variable {files files' : List SourceText} {size : Nat}

/-- The windows that are looked at, each with its file, come file by file. -/
lemma map_resolve_hashedWindows (files : List SourceText) (size : Nat) :
    (hashedWindows files size).map (fun w => (w.1, w.2.resolve files))
      = files.flatMap fun f => (scannedStarts f.lines size).map fun start =>
        (f.hashAt size start, some f, start) := by
  rw [hashedWindows, List.map_flatMap]
  calc files.zipIdx.flatMap _
    _ = files.zipIdx.flatMap fun entry =>
          (scannedStarts entry.1.lines size).map fun start =>
            (entry.1.hashAt size start, some entry.1, start) := by
      apply List.flatMap_congr
      rintro ⟨f, index⟩ hentry
      have hf : files[index]? = some f := List.mk_mem_zipIdx_iff_getElem?.1 hentry
      rw [List.map_map]
      apply List.map_congr_left
      intro start _
      show (f.hashAt size start, files[index]?, start) = (f.hashAt size start, some f, start)
      rw [hf]
    _ = (files.zipIdx.map Prod.fst).flatMap fun f =>
          (scannedStarts f.lines size).map fun start => (f.hashAt size start, some f, start) := by
      rw [List.flatMap_map]
    _ = _ := by rw [List.zipIdx_map_fst]

/-- The places of a hash are the same in whatever order the files are listed. -/
lemma placesOf_perm (hperm : files.Perm files') (size : Nat) (hash : String) :
    ((placesOf (hashedWindows files size) hash).map (Occurrence.resolve files)).Perm
      ((placesOf (hashedWindows files' size) hash).map (Occurrence.resolve files')) := by
  have hresolve (files : List SourceText) :
      (placesOf (hashedWindows files size) hash).map (Occurrence.resolve files)
        = (((hashedWindows files size).map fun w => (w.1, w.2.resolve files)).filter
          fun w => w.1 == hash).map Prod.snd := by
    rw [placesOf, List.filter_map, List.map_map, List.map_map]
    rfl
  rw [hresolve, hresolve, map_resolve_hashedWindows, map_resolve_hashedWindows]
  exact ((hperm.flatMap_right _).filter _).map _

/-- The starts of a group are laid. -/
lemma laid_of_mem_groups {g : Group} (hg : g ∈ groups files size) : Laid files g.starts := by
  refine ⟨starts_pairwise_of_mem_groups hg, fun o ho => ?_⟩
  obtain ⟨f, hf, -⟩ := hasWindow_of_mem_starts hg ho
  exact (List.getElem?_eq_some_iff.1 hf).1

/-- A group is found again if the files are listed in another order. -/
lemma exists_group_renumbered (hperm : files.Perm files') {g : Group} (hg : g ∈ groups files size) :
    ∃ g' ∈ groups files' size, g'.hash = g.hash ∧ Renumbered files files' g.starts g'.starts := by
  obtain ⟨hstarts, hne⟩ := mem_groups_iff.1 hg
  have hplaces := placesOf_perm hperm size g.hash
  rw [← hstarts] at hplaces
  have hne' : placesOf (hashedWindows files' size) g.hash ≠ [] := by
    intro hnil
    rw [hnil] at hplaces
    exact hne (List.map_eq_nil_iff.1 hplaces.eq_nil)
  have hg' : (⟨g.hash, _⟩ : Group) ∈ groups files' size := mem_groups_iff.2 ⟨rfl, hne'⟩
  exact ⟨_, hg', rfl, laid_of_mem_groups hg, laid_of_mem_groups hg', hplaces⟩

/-- Groups at the same places have one hash. -/
lemma hash_eq_of_renumbered {g g' : Group} (hg : g ∈ groups files size)
    (hg' : g' ∈ groups files' size) (h : Renumbered files files' g.starts g'.starts) :
    g.hash = g'.hash := by
  obtain ⟨o, ho⟩ := List.exists_mem_of_ne_nil _ (mem_groups_iff.1 hg).2
  obtain ⟨o', ho', hresolve⟩ := h.exists_resolve_eq ho
  obtain ⟨f, hf, -, hhash⟩ := hasWindow_of_mem_starts hg ho
  obtain ⟨f', hf', -, hhash'⟩ := hasWindow_of_mem_starts hg' ho'
  obtain ⟨hfile, hstart⟩ := Prod.mk.inj hresolve
  obtain rfl : f' = f := Option.some.inj (hf'.symm.trans (hfile.trans hf))
  rw [← hhash, ← hhash', hstart]

/-- The places of a group that lies in two of the files. -/
def GroupAcross (files : List SourceText) (size : Nat) (places : List Occurrence) : Prop :=
  ∃ g ∈ groups files size, 2 ≤ g.fileCount ∧ g.starts = places

/-- A group across files is one after a renumbering. -/
lemma GroupAcross.renumber (hfiles : files.Nodup) (hperm : files.Perm files')
    (places : List Occurrence) (h : GroupAcross files size places) :
    ∃ places', GroupAcross files' size places' ∧ Renumbered files files' places places' := by
  obtain ⟨g, hg, htwo, rfl⟩ := h
  obtain ⟨g', hg', -, hstarts⟩ := exists_group_renumbered hperm hg
  have htwo' : 2 ≤ g'.fileCount :=
    two_le_fileCount_iff.2 (hstarts.inTwoFiles hfiles (two_le_fileCount_iff.1 htwo))
  exact ⟨g'.starts, ⟨g', hg', htwo', rfl⟩, hstarts⟩

end Groups

section Runs

variable {files files' : List SourceText} {size : Nat}

/-- The runs behind the blocks across some different files. -/
def runsAcross (files : List SourceText) (size : Nat) : List Run :=
  runsOf files size fun g => 2 ≤ g.fileCount

/-- The maximal chains of groups across files are the runs across them. -/
lemma maximalChain_groupAcross_iff {starts : List Occurrence} {extension : Nat} :
    MaximalChain (GroupAcross files size) starts extension ↔
      ∃ r ∈ runsAcross files size, r.starts = starts ∧ r.extension = extension := by
  rw [runsAcross, runsOf, ← Run.maximalChain_iff inOrder_mergeSort]
  have hcomplete : GroupAcross files size = fun places =>
      ∃ g ∈ ((groups files size).filter fun g => 2 ≤ g.fileCount).mergeSort Group.le,
        g.starts = places := by
    funext places
    simp only [GroupAcross, List.mem_mergeSort, List.mem_filter, decide_eq_true_eq, and_assoc]
  rw [hcomplete]

/-- Runs of the files in two orders that stand at the same places. -/
structure Run.Same (files files' : List SourceText) (size : Nat) (r r' : Run) : Prop where
  mem : r ∈ runsAcross files size
  mem' : r' ∈ runsAcross files' size
  hash : r.hash = r'.hash
  extension : r.extension = r'.extension
  starts : Renumbered files files' r.starts r'.starts

namespace Run.Same

variable {r r' : Run}

/-- Runs that are the same one way are the same the other way. -/
lemma symm (h : Same files files' size r r') : Same files' files size r' r :=
  ⟨h.mem', h.mem, h.hash.symm, h.extension.symm, h.starts.symm⟩

/-- A run has one like after a renumbering. -/
lemma eq_right (hfiles : files'.Nodup) {s : Run} (h : Same files files' size r r')
    (h' : Same files files' size r s) : r' = s :=
  List.inj_on_of_nodup_map (Run.starts_nodup inOrder_mergeSort) h.mem' h'.mem'
    (h.starts.eq_right hfiles h'.starts)

/-- Runs match one to one in a renumbering. -/
lemma biUnique (hfiles : files.Nodup) (hfiles' : files'.Nodup) :
    Relator.BiUnique (Same files files' size) :=
  ⟨fun _ _ _ h h' => h.symm.eq_right hfiles h'.symm, fun _ _ _ h h' => h.eq_right hfiles' h'⟩

end Run.Same

/-- A run is found again if the files are listed in another order. -/
lemma exists_run_same (hfiles : files.Nodup) (hperm : files.Perm files') {r : Run}
    (hr : r ∈ runsAcross files size) :
    ∃ r' ∈ runsAcross files' size, Run.Same files files' size r r' := by
  have hfiles' : files'.Nodup := hperm.nodup_iff.1 hfiles
  obtain ⟨places', hstarts, hchain⟩ :=
    (maximalChain_groupAcross_iff.2 ⟨r, hr, rfl, rfl⟩).renumber hfiles hfiles'
      (GroupAcross.renumber hfiles hperm) (GroupAcross.renumber hfiles' hperm.symm)
  obtain ⟨r', hr', rfl, hextension⟩ := maximalChain_groupAcross_iff.1 hchain
  obtain ⟨g, hg, -, hhash, hfirst⟩ := exists_kept_of_first hr
  obtain ⟨g', hg', -, hhash', hfirst'⟩ := exists_kept_of_first hr'
  have hsame : r.hash = r'.hash := by
    rw [← hhash, ← hhash']
    rw [← hfirst, ← hfirst'] at hstarts
    exact hash_eq_of_renumbered hg hg' hstarts
  exact ⟨r', hr', hr, hr', hsame, hextension.symm, hstarts⟩

/-- Blocks that differ in the order of their locations only. -/
structure Block.Alike (a b : Block) : Prop where
  hash : a.hash = b.hash
  lines : a.lines = b.lines
  locations : a.locations.Perm b.locations

/-- Runs that are the same make blocks that are alike. -/
lemma Run.Same.alike_toBlock {r r' : Run} (h : Same files files' size r r') :
    (r.toBlock files size).Alike (r'.toBlock files' size) := by
  constructor
  case hash => exact h.hash
  case lines => exact congrArg (size + ·) h.extension
  case locations =>
    have hresolve (files : List SourceText) (starts : List Occurrence) :
        starts.map (r.locationAt files size)
          = (starts.map (Occurrence.resolve files)).map fun w =>
            ⟨(w.1.map SourceText.path).getD ⟨""⟩, w.2 + 1, w.2 + size + r.extension⟩ := by
      rw [List.map_map]
      rfl
    have hextension : r'.locationAt files' size = r.locationAt files' size := by
      funext o
      rw [locationAt, locationAt, h.extension]
    rw [locations_toBlock, locations_toBlock, hextension, hresolve, hresolve]
    exact h.starts.same.map _

/-- The blocks across files with different paths are those of the runs. -/
lemma acrossFiles_eq_map (hsize : 1 ≤ size)
    (hpaths : files.Pairwise fun f g => f.path.same g.path = false) :
    acrossFiles files size = (runsAcross files size).map (Run.toBlock files size) := by
  have hdistinct : distinctFiles files = files := Path.firsts_eq_self SourceText.path hpaths
  rw [acrossFiles, hdistinct, detect_eq_map_runsOf hsize]
  rfl

/-- Files of different paths are different. -/
lemma nodup_of_paths (hpaths : files.Pairwise fun f g => f.path.same g.path = false) :
    files.Nodup :=
  hpaths.imp fun h e => Path.ne_of_same_eq_false h (congrArg SourceText.path e)

end Runs

/-- If the files are listed in another order, the blocks across them are the same, but for the order
of the blocks and of the locations in each block. -/
theorem acrossFiles_perm (files files' : List SourceText) (size : Nat)
    (hpaths : files.Pairwise fun f g => f.path.same g.path = false) (hperm : files.Perm files') :
    ∃ blocks, blocks.Perm (acrossFiles files' size) ∧
      List.Forall₂ Block.Alike (acrossFiles files size) blocks := by
  have hpaths' : files'.Pairwise fun f g => f.path.same g.path = false := by
    refine (hperm.pairwise_iff ?_).1 hpaths
    intro f g h
    rwa [Path.same_comm]
  obtain rfl | hsize := Nat.eq_zero_or_pos size
  · exact ⟨[], List.Perm.refl _, .nil⟩
  have hfiles : files.Nodup := nodup_of_paths hpaths
  have hfiles' : files'.Nodup := nodup_of_paths hpaths'
  have hback : ∀ r' ∈ runsAcross files' size, ∃ r ∈ runsAcross files size,
      Run.Same files files' size r r' := by
    intro r' hr'
    obtain ⟨r, hr, hsame⟩ := exists_run_same hfiles' hperm.symm hr'
    exact ⟨r, hr, hsame.symm⟩
  obtain ⟨runs, hruns, hsame⟩ := exists_perm_forall₂ (Run.Same.biUnique hfiles hfiles')
    (Run.starts_nodup inOrder_mergeSort).of_map (Run.starts_nodup inOrder_mergeSort).of_map
    (fun r hr => exists_run_same hfiles hperm hr) hback
  refine ⟨runs.map (Run.toBlock files' size), ?_, ?_⟩
  · rw [acrossFiles_eq_map hsize hpaths']
    exact hruns.map _
  · rw [acrossFiles_eq_map hsize hpaths, List.forall₂_map_left_iff, List.forall₂_map_right_iff]
    exact hsame.imp fun _ _ h => h.alike_toBlock

/-- What the periodic text and its copy have in common is found in either order of the two. -/
theorem periodicFiles_reversed_alike :
    let files := periodicFiles.take 2
    (files.Pairwise fun f g => f.path.same g.path = false) ∧ files.Perm files.reverse ∧
      acrossFiles files 2 ≠ [] ∧ ∃ blocks, blocks.Perm (acrossFiles files.reverse 2) ∧
        List.Forall₂ Block.Alike (acrossFiles files 2) blocks := by
  intro files
  have hpaths : files.Pairwise fun f g => f.path.same g.path = false := by decide +kernel
  have hperm : files.Perm files.reverse := files.reverse_perm.symm
  refine ⟨hpaths, hperm, ?_, acrossFiles_perm files files.reverse 2 hpaths hperm⟩
  have apart : HashesApart files 2 := periodicFiles_apart.subset (List.take_subset _ _)
  let text : SourceText := ⟨⟨"a.ts"⟩, "p\n\tq\np\nq\np\n"⟩
  have hfirst : FirstListed files text := ⟨[], _, rfl, fun g hg => absurd hg List.not_mem_nil⟩
  have hother : FirstListed files ⟨⟨"b.ts"⟩, "q\n  p"⟩ := ⟨[text], [], rfl, by decide +kernel⟩
  have hrepeated : RepeatedAcross files text 2 1 :=
    ⟨⟨by decide +kernel, by decide +kernel⟩, _, 0, hother, by decide +kernel⟩
  obtain ⟨b, hb⟩ := exists_mem_acrossFiles (by decide) apart hfirst hrepeated
  exact List.ne_nil_of_mem hb

end CodeAudit.Duplicate
