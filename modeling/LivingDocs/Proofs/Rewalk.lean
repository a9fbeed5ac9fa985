import LivingDocs.Proofs.Destination
import LivingDocs.Proofs.Growth

/-!
# The way through a tree that has grown

Files of hidden names are left out by a pattern that holds everywhere, and below a directory that
was made there is nothing else. So nothing new is selected in a tree that has grown. What is met may
differ all the same: a directory may have got its first entry that no such pattern covers, and then
its ignore file is looked at, which was not before. But in such a directory nothing is selected
anyway, so looks at its ignore file do not count.

## Main definitions

* `LivingDocs.Selection.Sieve.heeds` — an ignore file that has a say in what is selected.
* `LivingDocs.Selection.Event.matters` — files that are found, and looks at such ignore files.

## Main results

* `LivingDocs.Selection.visit_barren` — nothing that matters is met below a directory that was made.
* `LivingDocs.Selection.visit_grown` — what matters is the same at a node of a tree that has grown.
* `LivingDocs.Selection.files_select_grown` — the same files are selected.
-/

set_option autoImplicit false

namespace LivingDocs

open FileSystem Std

/-- Elements that contribute nothing can be left out. -/
lemma flatMap_filter_of_nil {α β : Type} {f : α → List β} {p : α → Bool} {xs : List α}
    (h : ∀ x ∈ xs, p x = false → f x = []) : (xs.filter p).flatMap f = xs.flatMap f := by
  induction xs with
  | nil => rfl
  | cons x xs ih =>
    obtain ⟨hx, hxs⟩ := List.forall_mem_cons.mp h
    cases hp : p x with
    | true => rw [List.filter_cons_of_pos hp, List.flatMap_cons, List.flatMap_cons, ih hxs]
    | false =>
      rw [List.filter_cons_of_neg (by simp [hp]), List.flatMap_cons, hx hp, List.nil_append, ih hxs]

/-- An ascending list stands in another one that has all of its elements. -/
lemma Ascending.eq_filter {α : Type} [Ord α] [TransOrd α] [DecidableEq α] {xs ys : List α}
    (hxs : Ascending xs) (hys : Ascending ys) (h : xs ⊆ ys) :
    xs = ys.filter fun y => decide (y ∈ xs) := by
  have hfilter : Ascending (ys.filter fun y => decide (y ∈ xs)) := List.Pairwise.filter _ hys
  have hsets : (⟨xs, hxs⟩ : OrderedSet α) = ⟨_, hfilter⟩ := by
    refine OrderedSet.ext_mem fun x => ?_
    show x ∈ xs ↔ x ∈ ys.filter fun y => decide (y ∈ xs)
    rw [List.mem_filter, decide_eq_true_iff]
    exact ⟨fun hx => ⟨h hx, hx⟩, And.right⟩
  exact congrArg OrderedSet.toList hsets

namespace Selection

/-! ## What matters -/

/-- **Whether the ignore file of a directory has a say**: there is one, and some entry of the
directory is not left out without it. The directory is told by the parts of its path. -/
def Sieve.heeds (sieve : Sieve) (files : FileSystem) (parts : List Path.Part) : Bool :=
  match files.root.get? (parts.foldl Path.Part.apply files.here) with
  | some (.directory entries) => consults sieve entries && (ignoreFile? entries).isSome
  | _ => false

/-- **What matters for the selection**: files that are found, and looks at ignore files that have a
say. -/
def Event.matters (sieve : Sieve) (files : FileSystem) : Event → Bool
  | found _ => true
  | consulted look _ => sieve.heeds files look.parts
  | missed .. => false

/-- Earlier looks that are the same as far as they matter. -/
def Alike (sieve : Sieve) (files : FileSystem) (known known' : List Look) : Prop :=
  known.filter (fun look => sieve.heeds files look.parts) =
    known'.filter fun look => sieve.heeds files look.parts

section Heeds

variable {sieve : Sieve} {files : FileSystem} {path : Path} {address : Address}

/-- Whether the ignore file of a directory has a say, given where its path is bound for. -/
lemma heeds_of_get? (hpath : path.destination files.here = address)
    {entries : List (String × Node)} (h : files.root.get? address = some (.directory entries)) :
    sieve.heeds files path.parts = (consults sieve entries && (ignoreFile? entries).isSome) := by
  rw [Path.destination] at hpath
  rw [Sieve.heeds, hpath, h]

/-- Where nothing stands no ignore file has a say. -/
lemma heeds_of_get?_none (hpath : path.destination files.here = address)
    (h : files.root.get? address = none) : sieve.heeds files path.parts = false := by
  rw [Path.destination] at hpath
  rw [Sieve.heeds, hpath, h]

/-- Looks that are alike tell the same about an ignore file that has a say. -/
lemma Alike.earlier?_eq {known known' : List Look} (h : Alike sieve files known known')
    (hheeds : sieve.heeds files path.parts = true) :
    earlier? known path = earlier? known' path := by
  have hfilter : ∀ looks : List Look, earlier? looks path =
      (looks.filter fun look => sieve.heeds files look.parts).find? fun look =>
        look.parts = path.parts := by
    intro looks
    rw [List.find?_filter, earlier?]
    congr 1
    funext look
    by_cases hparts : look.parts = path.parts
    · simp [hparts, hheeds]
    · simp [hparts]
  rw [hfilter, hfilter, h]

/-- What an ignore file excludes depends on its content and on earlier looks at it. -/
lemma ignored_congr {known known' : List Look}
    (hearlier : earlier? known path = earlier? known' path)
    {entries entries' : List (String × Node)} (hfile : ignoreFile? entries' = ignoreFile? entries) :
    ignored known path entries = ignored known' path entries' := by
  rw [ignored, ignored, hearlier, hfile]

/-- A look at an ignore file matters only if the file has a say. -/
lemma filter_consultation_of_not_heeds (hheeds : sieve.heeds files path.parts = false)
    (known : List Look) (entries : List (String × Node)) :
    (consultation sieve known path entries).filter (Event.matters sieve files) = [] := by
  refine List.filter_eq_nil_iff.mpr fun event hevent => ?_
  obtain ⟨-, notices, rfl⟩ := exists_of_mem_consultation hevent
  simp [Event.matters, look, hheeds]

end Heeds

/-! ## Entries by their names -/

/-- What matters of what is met at the entry of some name. -/
def metAt (sieve : Sieve) (files : FileSystem) (known : List Look) (levels : List (List Glob))
    (path : Path) (entries : List (String × Node)) (name : String) : List Event :=
  (entries.lookup name).elim [] fun child =>
    if sieve.excludes levels name then []
    else (visit sieve known levels (path.join name) child).filter (Event.matters sieve files)

/-- What matters at the entries of a directory is what matters at each of their names. -/
lemma filter_visitEntries {sieve : Sieve} {files : FileSystem} {known : List Look}
    {levels : List (List Glob)} {path : Path} {entries : List (String × Node)}
    (hnodup : (entries.map Prod.fst).Nodup) :
    (visitEntries sieve known levels path entries).filter (Event.matters sieve files) =
      (entries.map Prod.fst).flatMap (metAt sieve files known levels path entries) := by
  have hvisit : ∀ entries : List (String × Node),
      (visitEntries sieve known levels path entries).filter (Event.matters sieve files) =
        entries.flatMap fun entry => if sieve.excludes levels entry.1 then [] else
          (visit sieve known levels (path.join entry.1) entry.2).filter
            (Event.matters sieve files) := by
    intro entries
    induction entries with
    | nil => rfl
    | cons entry entries ih =>
      rw [visitEntries, List.filter_append, ih, List.flatMap_cons]
      split_ifs <;> rfl
  rw [hvisit, List.flatMap_map]
  refine List.flatMap_congr fun entry hentry => ?_
  rw [metAt, (Node.lookup_eq_some_iff_mem hnodup).mpr hentry, Option.elim_some]

/-! ## Trees that have grown -/

section Grown

variable {hidden : String → Prop} {before after : FileSystem} {sieve : Sieve}

/-- Whether a name is left out depends on the ignore files only if these have a say. -/
lemma excludes_congr {levels levels' : List (List Glob)}
    (h : sieve.readIgnoreFiles = true → levels = levels') (name : String) :
    sieve.excludes levels name = sieve.excludes levels' name := by
  rw [Sieve.excludes, Sieve.excludes]
  cases hread : sieve.readIgnoreFiles with
  | false => rfl
  | true => rw [h hread]

/-- What stands under a new name: a file of a hidden name or a directory. -/
lemma hidden_or_isDirectory {name : String} {child : Node}
    (h : Alters hidden name none (some child.content?)) :
    hidden name ∨ child.isDirectory = true := by
  cases child with
  | file content =>
    cases h with
    | written _ hname _ => exact .inl hname
  | directory entries => exact .inr rfl

/-- A name that a pattern covers which holds everywhere is left out whatever ignore files say. -/
lemma excludes_of_covered {name : String} (h : Glob.anyCovers sieve.base name = true)
    (levels : List (List Glob)) : sieve.excludes levels name = true := by
  rw [Sieve.excludes, h, Bool.true_or]

/-- **Nothing that matters is met at a new name** if nothing does at a directory of that name. -/
lemma metAt_of_get?_none (hgrown : Grown hidden before after)
    (hcovered : ∀ name, hidden name → Glob.anyCovers sieve.base name = true) {address : Address}
    {entries : List (String × Node)} (hafter : after.root.get? address = some (.directory entries))
    {name : String} (hnone : before.root.get? (address ++ [name]) = none) {known : List Look}
    {levels : List (List Glob)} {path : Path}
    (hvisit : ∀ child, entries.lookup name = some child → child.isDirectory = true →
      (visit sieve known levels (path.join name) child).filter (Event.matters sieve before) = []) :
    metAt sieve before known levels path entries name = [] := by
  rw [metAt]
  cases hlookup : entries.lookup name with
  | none => rfl
  | some child =>
    have halters := hgrown.alters address name
    rw [view, Node.view, hnone, view_child hafter, hlookup] at halters
    rw [Option.elim_some]
    rcases hidden_or_isDirectory halters with hhidden | hchild
    · rw [if_pos (excludes_of_covered (hcovered name hhidden) _)]
    · rw [hvisit child hlookup hchild, ite_self]

/-- **Nothing that matters is met below a directory that was made.**

**Proof sketch.** Induction on what stands there. Its files have hidden names, and its directories
were made as well. No ignore file in them has a say, because nothing stood there before. -/
lemma visit_barren (hgrown : Grown hidden before after)
    (hcovered : ∀ name, hidden name → Glob.anyCovers sieve.base name = true)
    {node : Node} (hnode : node.Ordered) (hdirectory : node.isDirectory = true) {address : Address}
    (hbefore : before.root.get? address = none) (hafter : after.root.get? address = some node)
    {path : Path} (hpath : path.destination before.here = address) (known : List Look)
    (levels : List (List Glob)) :
    (visit sieve known levels path node).filter (Event.matters sieve before) = [] := by
  induction hnode generalizing address path levels with
  | file content => cases hdirectory
  | @directory entries ascending named below ih =>
    rw [visit]
    cases FileSystem.spelled path with
    | error fault => rfl
    | ok _ =>
      dsimp only
      rw [List.filter_append,
        filter_consultation_of_not_heeds (heeds_of_get?_none hpath hbefore), List.nil_append,
        filter_visitEntries ascending.nodup, List.flatMap_eq_nil_iff]
      intro name _
      have hnone : before.root.get? (address ++ [name]) = none := by
        rw [Node.get?_append, hbefore]
        rfl
      refine metAt_of_get?_none hgrown hcovered hafter hnone fun child hlookup hchild => ?_
      have hentry := (Node.lookup_eq_some_iff_mem ascending.nodup).mp hlookup
      refine ih (name, child) hentry hchild hnone ((Node.get?_child hafter name).trans hlookup) ?_ _
      rw [Path.destination_join path (named _ hentry), hpath]

section Directory

variable {address : Address} {entries entries' : List (String × Node)} {path : Path}
  {known known' : List Look} {levels levels' : List (List Glob)}

/-- The ignore file of a directory is the same. -/
lemma ignoreFile?_grown (hgrown : Grown hidden before after) (hignore : ¬ hidden ignoreFileName)
    (hbefore : before.root.get? address = some (.directory entries))
    (hafter : after.root.get? address = some (.directory entries')) :
    ignoreFile? entries' = ignoreFile? entries := by
  have hjoin : ∀ entries : List (String × Node), ignoreFile? entries =
      ((entries.lookup ignoreFileName).map Node.content?).join := by
    intro entries
    rw [ignoreFile?]
    cases entries.lookup ignoreFileName <;> rfl
  have halters := hgrown.alters address ignoreFileName
  rw [hjoin, hjoin, ← view_child hbefore, ← view_child hafter]
  generalize before.view (address ++ [ignoreFileName]) = stood at halters ⊢
  generalize after.view (address ++ [ignoreFileName]) = stands at halters ⊢
  cases halters with
  | same => rfl
  | written _ hname _ => exact absurd hname hignore
  | made => rfl

/-- An entry of a directory is still there, as a file or as a directory as before. -/
lemma exists_lookup_grown (hgrown : Grown hidden before after)
    (hbefore : before.root.get? address = some (.directory entries))
    (hafter : after.root.get? address = some (.directory entries')) {name : String} {child : Node}
    (hchild : entries.lookup name = some child) :
    ∃ child', entries'.lookup name = some child' ∧ child'.isDirectory = child.isDirectory := by
  obtain ⟨child', hget, hkind, -⟩ := hgrown.keeps _ _ ((Node.get?_child hbefore name).trans hchild)
  exact ⟨child', (Node.get?_child hafter name).symm.trans hget, hkind⟩

/-- Looks at an ignore file matter in the same way. -/
lemma filter_consultation_grown (hgrown : Grown hidden before after)
    (hignore : ¬ hidden ignoreFileName)
    (hbefore : before.root.get? address = some (.directory entries))
    (hafter : after.root.get? address = some (.directory entries'))
    (hordered : (Node.directory entries).Ordered) (hordered' : (Node.directory entries').Ordered)
    (hpath : path.destination before.here = address) (hknown : Alike sieve before known known') :
    (consultation sieve known path entries).filter (Event.matters sieve before) =
      (consultation sieve known' path entries').filter (Event.matters sieve before) := by
  cases hheeds : sieve.heeds before path.parts with
  | false =>
    rw [filter_consultation_of_not_heeds hheeds, filter_consultation_of_not_heeds hheeds]
  | true =>
    have hearlier := hknown.earlier?_eq hheeds
    have hfile := ignoreFile?_grown hgrown hignore hbefore hafter
    rw [heeds_of_get? hpath hbefore, Bool.and_eq_true] at hheeds
    -- the entry that is not left out in the old directory is there in the new one
    have hconsults : consults sieve entries' = true := by
      obtain ⟨hread, hany⟩ := Bool.and_eq_true_iff.mp hheeds.1
      obtain ⟨⟨name, child⟩, hentry, hkept⟩ := List.any_eq_true.mp hany
      obtain ⟨child', hlookup, -⟩ := exists_lookup_grown hgrown hbefore hafter
        ((Node.lookup_eq_some_iff_mem hordered.nodup).mpr hentry)
      have hentry' := (Node.lookup_eq_some_iff_mem hordered'.nodup).mp hlookup
      rw [consults, hread, Bool.true_and]
      exact List.any_eq_true.mpr ⟨_, hentry', hkept⟩
    rw [consultation, consultation, hheeds.1, hconsults, hfile, hearlier,
      ignored_congr hearlier hfile]

/-- Either the ignore files above an entry are the same, or no entry of the old directory is met
at all. -/
lemma levels_grown (hgrown : Grown hidden before after) (hignore : ¬ hidden ignoreFileName)
    (hbefore : before.root.get? address = some (.directory entries))
    (hafter : after.root.get? address = some (.directory entries'))
    (hpath : path.destination before.here = address) (hknown : Alike sieve before known known')
    (hlevels : sieve.readIgnoreFiles = true → levels = levels') :
    (sieve.readIgnoreFiles = true →
      patterns (ignored known path entries) :: levels =
        patterns (ignored known' path entries') :: levels') ∨
      ∀ entry ∈ entries, Glob.anyCovers sieve.base entry.1 = true := by
  have hfile := ignoreFile?_grown hgrown hignore hbefore hafter
  cases hconsults : consults sieve entries with
  | true =>
    refine .inl fun hread => ?_
    rw [hlevels hread]
    cases hsome : (ignoreFile? entries).isSome with
    | true =>
      have hheeds : sieve.heeds before path.parts = true := by
        rw [heeds_of_get? hpath hbefore, hconsults, hsome, Bool.and_self]
      rw [ignored_congr (hknown.earlier?_eq hheeds) hfile]
    | false =>
      have hnone : ignoreFile? entries = none := by simpa using hsome
      rw [ignored, ignored, hfile, hnone]
  | false =>
    rcases Bool.and_eq_false_iff.mp hconsults with hread | hany
    · exact .inl fun hread' => absurd hread' (by simp [hread])
    · exact .inr fun entry hentry => by simpa using List.any_eq_false.mp hany entry hentry

/-- What matters at a name of the new entries is what matters at that name in the old ones, if this
is so for the entries that were there. -/
lemma metAt_grown (hgrown : Grown hidden before after)
    (hcovered : ∀ name, hidden name → Glob.anyCovers sieve.base name = true)
    (hbefore : before.root.get? address = some (.directory entries))
    (hafter : after.root.get? address = some (.directory entries'))
    (hordered : (Node.directory entries).Ordered) (hordered' : (Node.directory entries').Ordered)
    (hpath : path.destination before.here = address)
    (hlevels : (sieve.readIgnoreFiles = true → levels = levels') ∨
      ∀ entry ∈ entries, Glob.anyCovers sieve.base entry.1 = true)
    (hvisit : (sieve.readIgnoreFiles = true → levels = levels') →
      ∀ {name : String} {child child' : Node}, entries.lookup name = some child →
        entries'.lookup name = some child' → child'.isDirectory = child.isDirectory →
        (visit sieve known levels (path.join name) child).filter (Event.matters sieve before) =
          (visit sieve known' levels' (path.join name) child').filter
            (Event.matters sieve before))
    (name : String) :
    metAt sieve before known levels path entries name =
      metAt sieve before known' levels' path entries' name := by
  cases hlookup : entries.lookup name with
  | none =>
    have hnone := (Node.get?_child hbefore name).trans hlookup
    have hnew : metAt sieve before known' levels' path entries' name = [] := by
      refine metAt_of_get?_none hgrown hcovered hafter hnone fun child hchild hdirectory => ?_
      obtain ⟨hname, hbelow⟩ := hordered'.of_lookup hchild
      refine visit_barren hgrown hcovered hbelow hdirectory hnone
        ((Node.get?_child hafter name).trans hchild) ?_ known' levels'
      rw [Path.destination_join path hname, hpath]
    rw [hnew, metAt, hlookup, Option.elim_none]
  | some child =>
    obtain ⟨child', hlookup', hkind⟩ := exists_lookup_grown hgrown hbefore hafter hlookup
    rw [metAt, metAt, hlookup, hlookup', Option.elim_some, Option.elim_some]
    rcases hlevels with hlevels | hcover
    · rw [excludes_congr hlevels, hvisit hlevels hlookup hlookup' hkind]
    · have hleft := hcover _ ((Node.lookup_eq_some_iff_mem hordered.nodup).mp hlookup)
      rw [if_pos (excludes_of_covered hleft _), if_pos (excludes_of_covered hleft _)]

/-- **What matters at the entries of a directory is the same.**

**Proof sketch.** The names of the old entries are those of the new ones without the new names, at
which nothing matters. -/
lemma filter_visitEntries_grown (hgrown : Grown hidden before after)
    (hbefore : before.root.get? address = some (.directory entries))
    (hafter : after.root.get? address = some (.directory entries'))
    (hordered : (Node.directory entries).Ordered) (hordered' : (Node.directory entries').Ordered)
    (hsame : ∀ name, metAt sieve before known levels path entries name =
      metAt sieve before known' levels' path entries' name) :
    (visitEntries sieve known levels path entries).filter (Event.matters sieve before) =
      (visitEntries sieve known' levels' path entries').filter (Event.matters sieve before) := by
  have hsubset : entries.map Prod.fst ⊆ entries'.map Prod.fst := by
    intro name hname
    obtain ⟨⟨_, child⟩, hentry, rfl⟩ := List.mem_map.mp hname
    obtain ⟨child', hlookup', -⟩ := exists_lookup_grown hgrown hbefore hafter
      ((Node.lookup_eq_some_iff_mem hordered.nodup).mpr hentry)
    exact List.mem_map.mpr ⟨_, (Node.lookup_eq_some_iff_mem hordered'.nodup).mp hlookup', rfl⟩
  have hnames := Ascending.eq_filter hordered.ascending hordered'.ascending hsubset
  calc (visitEntries sieve known levels path entries).filter (Event.matters sieve before)
      = (entries.map Prod.fst).flatMap (metAt sieve before known levels path entries) :=
        filter_visitEntries hordered.nodup
    _ = ((entries'.map Prod.fst).filter (· ∈ entries.map Prod.fst)).flatMap
          (metAt sieve before known levels path entries) := by rw [← hnames]
    _ = (entries'.map Prod.fst).flatMap (metAt sieve before known levels path entries) := by
        refine flatMap_filter_of_nil fun name _ hnew => ?_
        have hnone : entries.lookup name = none := by
          refine Option.eq_none_iff_forall_ne_some.mpr fun child hlookup => ?_
          have hentry := (Node.lookup_eq_some_iff_mem hordered.nodup).mp hlookup
          exact of_decide_eq_false hnew (List.mem_map.mpr ⟨_, hentry, rfl⟩)
        rw [metAt, hnone, Option.elim_none]
    _ = (entries'.map Prod.fst).flatMap (metAt sieve before known' levels' path entries') :=
        List.flatMap_congr fun name _ => hsame name
    _ = (visitEntries sieve known' levels' path entries').filter (Event.matters sieve before) :=
        (filter_visitEntries hordered'.nodup).symm

end Directory

/-- **What matters is the same at a node of a tree that has grown.**

**Proof sketch.** Induction on the node. In a directory what matters is the same at each name: new
entries are left out or are directories that were made, and an old entry is left out in both trees
or the statement holds of it. For the ignore files above it say the same, unless all old entries are
left out without them. -/
lemma visit_grown (hgrown : Grown hidden before after)
    (hcovered : ∀ name, hidden name → Glob.anyCovers sieve.base name = true)
    (hignore : ¬ hidden ignoreFileName) {known known' : List Look}
    (hknown : Alike sieve before known known') {old : Node} (hold : old.Ordered) {new : Node}
    (hnew : new.Ordered) {address : Address} (hbefore : before.root.get? address = some old)
    (hafter : after.root.get? address = some new) (hkind : new.isDirectory = old.isDirectory)
    {path : Path} (hpath : path.destination before.here = address)
    {levels levels' : List (List Glob)}
    (hlevels : sieve.readIgnoreFiles = true → levels = levels') :
    (visit sieve known levels path old).filter (Event.matters sieve before) =
      (visit sieve known' levels' path new).filter (Event.matters sieve before) := by
  induction hold generalizing new address path levels levels' with
  | file content =>
    cases new with
    | file content' => rw [visit, visit]
    | directory entries' => cases hkind
  | @directory entries ascending named below ih =>
    have hordered : (Node.directory entries).Ordered := .directory ascending named below
    cases new with
    | file content' => cases hkind
    | directory entries' =>
      rw [visit, visit]
      cases FileSystem.spelled path with
      | error fault => rfl
      | ok _ =>
        dsimp only
        rw [List.filter_append, List.filter_append, filter_consultation_grown hgrown hignore hbefore
          hafter hordered hnew hpath hknown]
        congr 1
        refine filter_visitEntries_grown hgrown hbefore hafter hordered hnew <|
          metAt_grown hgrown hcovered hbefore hafter hordered hnew hpath
            (levels_grown hgrown hignore hbefore hafter hpath hknown hlevels) ?_
        intro hlevels' name child child' hlookup hlookup' hkind'
        obtain ⟨hname, hbelow⟩ := hnew.of_lookup hlookup'
        refine ih _ ((Node.lookup_eq_some_iff_mem ascending.nodup).mp hlookup) hbelow
          ((Node.get?_child hbefore name).trans hlookup)
          ((Node.get?_child hafter name).trans hlookup') hkind' ?_ hlevels'
        rw [Path.destination_join path hname, hpath]

/-! ## The selection -/

/-- The looks that count are those that matter. -/
lemma filter_filterMap_look? (events : List Event) (files : FileSystem) :
    (events.filterMap Event.look?).filter (fun look => sieve.heeds files look.parts) =
      (events.filter (Event.matters sieve files)).filterMap Event.look? := by
  rw [List.filter_filterMap, List.filterMap_filter]
  congr 1
  funext event
  cases event with
  | consulted look notices =>
    cases hheeds : sieve.heeds files look.parts <;>
      simp [Event.look?, Event.matters, Option.filter, hheeds]
  | _ => simp [Event.look?]

/-- The files that are found are those that matter. -/
lemma filterMap_file?_filter (events : List Event) (files : FileSystem) :
    (events.filter (Event.matters sieve files)).filterMap Event.file? =
      events.filterMap Event.file? := by
  rw [List.filterMap_filter]
  congr 1
  funext event
  cases event with
  | found file => simp [Event.file?, Event.matters]
  | _ => exact ite_self none

/-- What matters is the same at a root that was there. -/
lemma visitRoot_grown (hgrown : Grown hidden before after)
    (hcovered : ∀ name, hidden name → Glob.anyCovers sieve.base name = true)
    (hignore : ¬ hidden ignoreFileName) {known known' : List Look}
    (hknown : Alike sieve before known known') {root : Path} {place : Place}
    (hroot : before.reach root = .ok place) :
    (visitRoot before sieve known root).filter (Event.matters sieve before) =
      (visitRoot after sieve known' root).filter (Event.matters sieve before) := by
  obtain ⟨place', hroot', haddress⟩ := reach_of_keeps hgrown.keeps hgrown.here hroot
  have hget := (within_of_reach hroot).get?_address
  have hget' := (within_of_reach hroot').get?_address
  rw [haddress] at hget'
  obtain ⟨node, hnode, hkind, -⟩ := hgrown.keeps _ _ hget
  cases hnode.symm.trans hget'
  rw [visitRoot, visitRoot, find, find, hroot, hroot']
  exact visit_grown hgrown hcovered hignore hknown (before.ordered.of_get? hget).1
    (after.ordered.of_get? hget').1 hget hget' hkind (address_of_reach hroot).symm fun _ => rfl

/-- What matters is the same at several roots that were there.

**Proof sketch.** Induction on the roots, for earlier looks that are alike: those at the first root
are so as well, since what matters there is the same. -/
lemma visitRoots_grown (hgrown : Grown hidden before after)
    (hcovered : ∀ name, hidden name → Glob.anyCovers sieve.base name = true)
    (hignore : ¬ hidden ignoreFileName) {known known' : List Look}
    (hknown : Alike sieve before known known') {roots : List Path}
    (hroots : ∀ root ∈ roots, ∃ place, before.reach root = .ok place) :
    (visitRoots before sieve known roots).filter (Event.matters sieve before) =
      (visitRoots after sieve known' roots).filter (Event.matters sieve before) := by
  induction roots generalizing known known' with
  | nil => rfl
  | cons root roots ih =>
    obtain ⟨⟨place, hroot⟩, hrest⟩ := List.forall_mem_cons.mp hroots
    have hfirst := visitRoot_grown hgrown hcovered hignore hknown hroot
    have hlooks : Alike sieve before
        (known ++ (visitRoot before sieve known root).filterMap Event.look?)
        (known' ++ (visitRoot after sieve known' root).filterMap Event.look?) := by
      rw [Alike, List.filter_append, List.filter_append, filter_filterMap_look?,
        filter_filterMap_look?, hfirst, hknown]
    rw [visitRoots, visitRoots, List.filter_append, List.filter_append, hfirst, ih hlooks hrest]

/-- **The same files are selected in a tree that has grown**, if its files of hidden names are left
out everywhere and the roots were there before. -/
theorem files_select_grown {options : Options} (hgrown : Grown hidden before after)
    (hcovered : ∀ name, hidden name → Glob.anyCovers options.sieve.base name = true)
    (hignore : ¬ hidden ignoreFileName) {roots : List Path}
    (hroots : ∀ root ∈ roots, ∃ place, before.reach root = .ok place) :
    (select after options roots).files = (select before options roots).files := by
  have hevents := visitRoots_grown hgrown hcovered hignore
    (rfl : Alike options.sieve before [] []) hroots
  rw [select, select, events, events, ← filterMap_file?_filter (visitRoots after _ _ _) before,
    ← filterMap_file?_filter (visitRoots before _ _ _) before, hevents]

end Grown

end Selection

end LivingDocs
