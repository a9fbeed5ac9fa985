import LivingDocs.OrderedMap

/-!
# File trees

A node is a file with its content or a directory with its entries, and an address leads from a
node down to another one. Putting a node at an address leaves everything off the way alone. The
trees of a file system have the entries of each directory in the order of their names, and putting
a node keeps them so.

## Main definitions

* `LivingDocs.FileSystem.Node` — files and directories.
* `LivingDocs.FileSystem.Address` — the names from a node down to another one.
* `LivingDocs.FileSystem.Node.get?`, `LivingDocs.FileSystem.Node.put` — the node at an address, and
  the tree with another node there.
* `LivingDocs.FileSystem.EntryName` — a name that an entry can have.
* `LivingDocs.FileSystem.Node.Ordered` — a tree with the entries of each directory in order.

## Main results

* `LivingDocs.FileSystem.lookup_putAscending` — what a name yields after an entry has been put.
* `LivingDocs.FileSystem.Node.get?_append` — an address is followed name by name.
* `LivingDocs.FileSystem.Node.Ordered.put` — putting a node keeps the entries in order.
-/

set_option autoImplicit false

namespace LivingDocs.FileSystem

/-- **A file or a directory.** That the entries are in the order of their names is `Node.Ordered`,
which holds of the tree of every file system. -/
inductive Node where
  | file (content : ByteArray)
  | directory (entries : List (String × Node))

/-- The names from a node down to another one. -/
abbrev Address := List String

namespace Node

/-- The entries of a directory; a file has none. -/
def entries : Node → List (String × Node)
  | file _ => []
  | directory entries => entries

/-- Whether a node is a directory. -/
def isDirectory : Node → Bool
  | file _ => false
  | directory _ => true

/-- The content of a file. -/
def content? : Node → Option ByteArray
  | file content => some content
  | directory _ => none

/-- The entry of that name. -/
def child? (node : Node) (name : String) : Option Node := node.entries.lookup name

/-- **The node at an address.** -/
def get? (node : Node) : Address → Option Node
  | [] => some node
  | name :: names => (node.child? name).bind fun child => child.get? names

/-- **The tree with `new` at an address.** Nothing changes if there is no directory on the way. -/
def put : Node → Address → Node → Node
  | _, [], new => new
  | file content, _ :: _, _ => file content
  | directory entries, [name], new => directory (putAscending name new entries)
  | directory entries, name :: next :: names, new =>
    match entries.lookup name with
    | some child => directory (putAscending name (child.put (next :: names) new) entries)
    | none => directory entries

/-- Following an address in two legs. -/
theorem get?_append (node : Node) (first second : Address) :
    node.get? (first ++ second) = (node.get? first).bind fun inner => inner.get? second := by
  induction first generalizing node with
  | nil => rfl
  | cons name names ih =>
    rw [List.cons_append, get?, get?]
    cases node.child? name with
    | none => rfl
    | some child => exact ih child

end Node

/-- What a name yields in a list of entries: the first node under it. -/
theorem lookup_entry (name other : String) (node : Node) (entries : List (String × Node)) :
    ((name, node) :: entries).lookup other =
      if other = name then some node else entries.lookup other := by
  by_cases h : other = name
  · simp [h]
  · have hne : (other == name) = false := by simpa using h
    rw [List.lookup_cons, hne, if_neg h]

/-- What a name yields after an entry has been put: the new node under its own name, and what was
there under any other. -/
theorem lookup_putAscending (name other : String) (node : Node) (entries : List (String × Node)) :
    (putAscending name node entries).lookup other =
      if other = name then some node else entries.lookup other := by
  induction entries with
  | nil => exact lookup_entry name other node []
  | cons entry entries ih =>
    obtain ⟨first, inner⟩ := entry
    rw [putAscending]
    split
    · exact lookup_entry name other node _
    · next heq =>
      have hname : name = first := Std.LawfulEqOrd.eq_of_compare heq
      simp only [lookup_entry, hname]
      split <;> rfl
    · next hgt =>
      have hne : first ≠ name := by
        intro h
        rw [h, Std.ReflOrd.compare_self] at hgt
        cases hgt
      rw [lookup_entry, lookup_entry, ih]
      by_cases h : other = name
      · have hother : ¬ other = first := fun hf => hne (hf.symm.trans h)
        rw [if_pos h, if_pos h, if_neg hother]
      · rw [if_neg h, if_neg h]

/-- Entries that are there after a node has been put. -/
theorem mem_putAscending {name : String} {node : Node} {entries : List (String × Node)}
    {entry : String × Node} (h : entry ∈ putAscending name node entries) :
    entry = (name, node) ∨ entry ∈ entries := by
  induction entries with
  | nil => exact .inl (List.mem_singleton.mp h)
  | cons first entries ih =>
    rw [putAscending] at h
    split at h
    · exact List.mem_cons.mp h
    · next heq =>
      rw [← Std.LawfulEqOrd.eq_of_compare heq] at h
      exact (List.mem_cons.mp h).imp id (List.mem_cons_of_mem first)
    · rcases List.mem_cons.mp h with rfl | h
      · exact .inr List.mem_cons_self
      · exact (ih h).imp id (List.mem_cons_of_mem first)

/-- What is found under a name is an entry. -/
theorem mem_of_lookup {name : String} {node : Node} {entries : List (String × Node)}
    (h : entries.lookup name = some node) : (name, node) ∈ entries := by
  induction entries with
  | nil => cases h
  | cons entry entries ih =>
    obtain ⟨first, inner⟩ := entry
    rw [lookup_entry] at h
    split at h
    · next heq =>
      cases h
      rw [heq]
      exact List.mem_cons_self
    · exact List.mem_cons_of_mem _ (ih h)

/-! ## Trees in order -/

/-- **A name that an entry can have**: a piece of a path that is no way to stay or to go up. -/
structure EntryName (name : String) : Prop where
  noSlash : '/' ∉ name.toList
  nonempty : name ≠ ""
  notHere : name ≠ "."
  notUp : name ≠ ".."

instance : DecidablePred EntryName := fun name =>
  decidable_of_iff ('/' ∉ name.toList ∧ name ≠ "" ∧ name ≠ "." ∧ name ≠ "..")
    ⟨fun h => ⟨h.1, h.2.1, h.2.2.1, h.2.2.2⟩, fun h => ⟨h.noSlash, h.nonempty, h.notHere, h.notUp⟩⟩

namespace Node

/-- **A tree with the entries of each directory in the order of their names**, which are names that
an entry can have. -/
inductive Ordered : Node → Prop
  | file (content : ByteArray) : Ordered (.file content)
  | directory {entries : List (String × Node)} (ascending : Ascending (entries.map Prod.fst))
      (named : ∀ entry ∈ entries, EntryName entry.1)
      (below : ∀ entry ∈ entries, Ordered entry.2) : Ordered (.directory entries)

mutual

/-- Decides whether a tree has its entries in order. -/
def decideOrdered : (node : Node) → Decidable node.Ordered
  | file content => isTrue (.file content)
  | directory entries =>
    match decideBelow entries with
    | isTrue below =>
      decidable_of_iff (Ascending (entries.map Prod.fst) ∧ ∀ entry ∈ entries, EntryName entry.1)
        ⟨fun h => .directory h.1 h.2 below,
          fun | .directory ascending named _ => ⟨ascending, named⟩⟩
    | isFalse hbelow => isFalse fun | .directory _ _ below => hbelow below

/-- Decides whether the nodes in a directory have their entries in order. -/
def decideBelow : (entries : List (String × Node)) →
    Decidable (∀ entry ∈ entries, entry.2.Ordered)
  | [] => isTrue (List.forall_mem_nil _)
  | (_, node) :: entries =>
    match decideOrdered node, decideBelow entries with
    | isTrue hnode, isTrue hentries => isTrue (List.forall_mem_cons.mpr ⟨hnode, hentries⟩)
    | isFalse hnode, _ => isFalse fun h => hnode (h _ List.mem_cons_self)
    | _, isFalse hentries => isFalse fun h => hentries (List.forall_mem_cons.mp h).2

end

instance : DecidablePred Ordered := decideOrdered

namespace Ordered

/-- A directory without entries has them in order. -/
theorem empty : (Node.directory []).Ordered :=
  .directory ascending_nil (List.forall_mem_nil _) (List.forall_mem_nil _)

/-- What stands in such a directory has an entry's name and is such a tree. -/
theorem of_lookup {entries : List (String × Node)} (h : (Node.directory entries).Ordered)
    {name : String} {child : Node} (hchild : entries.lookup name = some child) :
    EntryName name ∧ child.Ordered := by
  cases h with
  | directory _ named below =>
    have hmem := mem_of_lookup hchild
    exact ⟨named _ hmem, below _ hmem⟩

/-- Putting an entry keeps the entries in order. -/
theorem putAscending {entries : List (String × Node)} (h : (Node.directory entries).Ordered)
    {name : String} (hname : EntryName name) {new : Node} (hnew : new.Ordered) :
    (Node.directory (putAscending name new entries)).Ordered := by
  cases h with
  | directory ascending named below =>
    refine .directory ?_ (fun entry hentry => ?_) fun entry hentry => ?_
    · rw [map_fst_putAscending]
      exact ascending_insertAscending name ascending
    · rcases mem_putAscending hentry with rfl | hold
      · exact hname
      · exact named entry hold
    · rcases mem_putAscending hentry with rfl | hold
      · exact hnew
      · exact below entry hold

/-- **Putting a node keeps the entries in order.**

**Proof sketch.** Induction on the address. The names on the way to the directory that the node is
put into are names of entries already, and only the last one may be new. -/
theorem put {node new : Node} (h : node.Ordered) {name : String} (hname : EntryName name)
    (hnew : new.Ordered) (address : Address) : (node.put (address ++ [name]) new).Ordered := by
  induction address generalizing node with
  | nil =>
    cases node with
    | file content => exact h
    | directory entries => exact h.putAscending hname hnew
  | cons first address ih =>
    cases node with
    | file content => exact h
    | directory entries =>
      obtain ⟨next, names, hrest⟩ : ∃ next names, address ++ [name] = next :: names :=
        List.exists_cons_of_ne_nil (by simp)
      rw [List.cons_append, hrest, Node.put]
      split
      · next child hchild =>
        obtain ⟨hfirst, hbelow⟩ := h.of_lookup hchild
        rw [← hrest]
        exact h.putAscending hfirst (ih hbelow)
      · exact h

end Ordered

end Node

end LivingDocs.FileSystem
