/-
Well-formed file systems, and what following a path in one leads to.

An operating system keeps the entries of a directory under names that
differ and that can be written in a path; `FileNode.WellFormed` asks this
of a tree at every depth. Looking a name up and being an entry are then
the same (`WellFormed.lookup_eq`).

# Going on from a directory

A path is followed to its end at once, whereas a walk goes on from where
it stands. The two agree: when some names lead to a directory, with more
names the way continues from that directory (`Trail.follow_append`),
whatever links it took to get there. So the entries of a directory that a
listing names are listed below it (`Walk.listing_join`).
-/
import Mathlib
import SourceDigest.Files.Collect
import SourceDigest.Proofs.Path.Below

namespace SourceDigest

-- ================================================================ well-formed

/-- What an operating system lets an entry of a directory be called. -/
structure IsEntryName (n : Text) : Prop extends Path.IsName n where
  short : Text.byteSize n ≤ nameLimit

instance (n : Text) : Decidable (IsEntryName n) :=
  decidable_of_iff (Path.IsName n ∧ Text.byteSize n ≤ nameLimit)
    ⟨fun h => ⟨h.1, h.2⟩, fun h => ⟨h.toIsName, h.short⟩⟩

/-- At every depth entries have names that differ and that can be written
in a path. -/
inductive FileNode.WellFormed : FileNode → Prop
  | file {content : Bytes} {modified : Int} :
    WellFormed (.file content modified)
  | link {target : Path} : WellFormed (.link target)
  | directory {entries : Entries} :
    (entries.map Prod.fst).Nodup →
    (∀ e ∈ entries, IsEntryName e.1) →
    (∀ e ∈ entries, WellFormed e.2) →
    WellFormed (.directory entries)

namespace FileNode.WellFormed

variable {es : Entries} {name : Text} {n : FileNode}

/-- The names in a directory are different. -/
theorem nodup (h : WellFormed (.directory es)) : (es.map Prod.fst).Nodup := by
  cases h with
  | directory hnodup _ _ => exact hnodup

/-- Each of them can be the name of an entry. -/
theorem isEntryName (h : WellFormed (.directory es)) (hmem : (name, n) ∈ es) :
    IsEntryName name := by
  cases h with
  | directory _ hnames _ => exact hnames _ hmem

/-- What stands in a well-formed directory is well-formed. -/
theorem of_mem (h : WellFormed (.directory es)) (hmem : (name, n) ∈ es) :
    n.WellFormed := by
  cases h with
  | directory _ _ hnodes => exact hnodes _ hmem

theorem nil : WellFormed (.directory []) :=
  directory (by simp) (by simp) (by simp)

/-- An entry is what its name is looked up as. -/
theorem lookup_eq (h : WellFormed (.directory es)) (hmem : (name, n) ∈ es) :
    es.lookup name = some n := by
  have hnodup := h.nodup
  clear h
  induction es with
  | nil => cases hmem
  | cons e es ih =>
      rw [List.map_cons, List.nodup_cons] at hnodup
      rcases List.mem_cons.1 hmem with rfl | hmem
      · exact List.lookup_cons_self
      · have hne : name ≠ e.1 := fun he =>
          hnodup.1 (he ▸ List.mem_map_of_mem hmem)
        rw [List.lookup_cons, beq_false_of_ne hne]
        exact ih hmem hnodup.2

end FileNode.WellFormed

/-- What a name is looked up as is an entry. -/
theorem mem_of_lookup_eq {es : Entries} {name : Text} {n : FileNode}
    (h : es.lookup name = some n) : (name, n) ∈ es := by
  obtain ⟨front, back, rfl, -⟩ := List.lookup_eq_some_iff.1 h
  exact List.mem_append_right _ (List.mem_cons_self ..)

/-- A file system is well-formed when its tree is. -/
def FileSystem.WellFormed (fs : FileSystem) : Prop :=
  (FileNode.directory fs.top).WellFormed

-- ===================================================================== trails

namespace Trail

/-- The directories of a trail are well-formed. -/
structure WellFormed (t : Trail) : Prop where
  below : ∀ e ∈ t.below, (FileNode.directory e.2).WellFormed
  top : (FileNode.directory t.top).WellFormed

namespace WellFormed

variable {t : Trail}

/-- Along a trail one stands in a well-formed directory. -/
theorem entries (h : t.WellFormed) :
    (FileNode.directory t.entries).WellFormed := by
  obtain ⟨dirs, top⟩ := t
  cases dirs with
  | nil => exact h.top
  | cons e dirs => exact h.below e (List.mem_cons_self ..)

/-- Going up keeps a trail well-formed. -/
theorem up (h : t.WellFormed) : t.up.WellFormed :=
  ⟨fun e he => h.below e (List.mem_of_mem_tail he), h.top⟩

/-- So does going down into a well-formed directory. -/
theorem enter (h : t.WellFormed) {es : Entries}
    (hes : (FileNode.directory es).WellFormed)
    (name : Text) : (t.enter name es).WellFormed := by
  refine ⟨fun e he => ?_, h.top⟩
  rcases List.mem_cons.1 he with rfl | he
  · exact hes
  · exact h.below e he

/-- So does going back to the top. -/
theorem root (h : t.WellFormed) : WellFormed ⟨[], t.top⟩ := ⟨by simp, h.top⟩

end WellFormed

/-- A name that is looked up: not one that stays or goes up, and not one
that is too long. -/
structure IsProper (name : Text) : Prop where
  not_blank : ¬(name = [] ∨ name = ['.'])
  ne_up : name ≠ ['.', '.']
  short : ¬nameLimit < Text.byteSize name

/-- The directory that some names lead to from another, with the number of
links that may be followed at either end of the way. -/
inductive Leads : Trail → Nat → List Text → Trail → Nat → Prop
  | done {t : Trail} {links : Nat} : Leads t links [] t links
  | stay {t t' : Trail} {links left : Nat} {name : Text} {rest : List Text} :
    name = [] ∨ name = ['.'] →
    Leads t links rest t' left →
    Leads t links (name :: rest) t' left
  | up {t t' : Trail} {links left : Nat} {rest : List Text} :
    Leads t.up links rest t' left →
    Leads t links (['.', '.'] :: rest) t' left
  | enter {t t' : Trail} {links left : Nat} {name : Text} {rest : List Text}
      {es : Entries} :
    IsProper name →
    t.entries.lookup name = some (.directory es) →
    Leads (t.enter name es) links rest t' left →
    Leads t links (name :: rest) t' left
  | link {t t' : Trail} {links left : Nat} {name : Text} {rest : List Text}
      {target : Path} :
    IsProper name →
    t.entries.lookup name = some (.link target) →
    Leads (if Path.isAbsolute target then ⟨[], t.top⟩ else t) links
      (Text.splitOn '/' target ++ rest) t' left →
    Leads t (links + 1) (name :: rest) t' left

section

variable {t t' : Trail} {links left : Nat} {names : List Text}

/-- What is followed to a directory leads there. -/
theorem leads_of_follow (h : t.follow links names = .ok (.directory t')) :
    ∃ left, Leads t links names t' left := by
  induction t, links, names using Trail.follow.induct with
  | case1 t links =>
      rw [follow] at h
      cases h
      exact ⟨links, .done⟩
  | case2 t links name rest hblank ih =>
      rw [follow, if_pos hblank] at h
      exact (ih h).imp fun _ => .stay hblank
  | case3 t links rest hblank ih =>
      rw [follow, if_neg hblank, if_pos rfl] at h
      exact (ih h).imp fun _ => .up
  | case4 t links name rest hblank hup hlong =>
      rw [follow, if_neg hblank, if_neg hup, if_pos hlong] at h
      cases h
  | case5 t links name hblank hup hshort hnone =>
      simp [follow, hblank, hup, hshort, hnone] at h
  | case6 t links name rest hblank hup hshort hnone hrest =>
      simp [follow, hblank, hup, hshort, hnone, hrest] at h
  | case7 t links name hblank hup hshort content modified hfile =>
      simp [follow, hblank, hup, hshort, hfile] at h
  | case8 t links name rest hblank hup hshort content modified hfile hrest =>
      simp [follow, hblank, hup, hshort, hfile, hrest] at h
  | case9 t links name rest hblank hup hshort es hdir ih =>
      rw [follow, if_neg hblank, if_neg hup, if_neg hshort, hdir] at h
      exact (ih h).imp fun _ => .enter ⟨hblank, hup, hshort⟩ hdir
  | case10 t name rest hblank hup hshort target hlink =>
      rw [follow, if_neg hblank, if_neg hup, if_neg hshort, hlink] at h
      cases h
  | case11 t name rest hblank hup hshort target hlink links ih =>
      rw [follow, if_neg hblank, if_neg hup, if_neg hshort, hlink] at h
      exact (ih h).imp fun _ => .link ⟨hblank, hup, hshort⟩ hlink

/-- Where names lead, the way goes on from there. -/
theorem Leads.follow_append (h : Leads t links names t' left)
    (more : List Text) :
    t.follow links (names ++ more) = t'.follow left more := by
  induction h with
  | done => rfl
  | stay hblank _ ih => rw [List.cons_append, Trail.follow, if_pos hblank, ih]
  | up _ ih =>
      rw [List.cons_append, Trail.follow, if_neg (by simp), if_pos rfl, ih]
  | enter hname hdir _ ih =>
      rw [List.cons_append, Trail.follow, if_neg hname.not_blank,
        if_neg hname.ne_up, if_neg hname.short, hdir]
      exact ih
  | link hname hlink _ ih =>
      rw [List.cons_append, Trail.follow, if_neg hname.not_blank,
        if_neg hname.ne_up, if_neg hname.short, hlink]
      rw [List.append_assoc] at ih
      exact ih

/-- A blank name at the end changes nothing. -/
theorem Leads.of_concat_blank (h : Leads t links (names ++ [[]]) t' left) :
    Leads t links names t' left := by
  generalize hall : names ++ [[]] = all at h
  induction h generalizing names with
  | done => simp at hall
  | stay hblank h ih =>
      cases names with
      | nil =>
          obtain ⟨rfl, rfl⟩ := List.cons.inj hall
          exact h
      | cons name names =>
          obtain ⟨rfl, hrest⟩ := List.cons.inj hall
          exact .stay hblank (ih hrest)
  | up h ih =>
      cases names with
      | nil => simp at hall
      | cons name names =>
          obtain ⟨rfl, hrest⟩ := List.cons.inj hall
          exact .up (ih hrest)
  | enter hname hdir h ih =>
      cases names with
      | nil => exact absurd (Or.inl (List.cons.inj hall).1.symm) hname.not_blank
      | cons name names =>
          obtain ⟨rfl, hrest⟩ := List.cons.inj hall
          exact .enter hname hdir (ih hrest)
  | link hname hlink h ih =>
      cases names with
      | nil => exact absurd (Or.inl (List.cons.inj hall).1.symm) hname.not_blank
      | cons name names =>
          obtain ⟨rfl, hrest⟩ := List.cons.inj hall
          refine .link hname hlink (ih ?_)
          rw [List.append_assoc]
          exact congrArg _ hrest

/-- The way stays in well-formed directories. -/
theorem Leads.wellFormed (h : Leads t links names t' left) (ht : t.WellFormed) :
    t'.WellFormed := by
  induction h with
  | done => exact ht
  | stay _ _ ih => exact ih ht
  | up _ ih => exact ih ht.up
  | enter _ hdir _ ih =>
      exact ih (ht.enter (ht.entries.of_mem (mem_of_lookup_eq hdir)) _)
  | link _ _ _ ih =>
      apply ih
      split
      · exact ht.root
      · exact ht

end

end Trail

-- =================================================================== listings

namespace FileSystem

variable {fs : FileSystem} {path : Path} {name : Text}

/-- Where a path is followed from. -/
def startOf (fs : FileSystem) (path : Path) : Trail :=
  if Path.isAbsolute path then ⟨[], fs.top⟩ else trailOf fs.here ⟨[], fs.top⟩

/-- The empty path leads nowhere. -/
theorem ne_nil_of_follow {arrival : Arrival}
    (h : fs.follow path = .ok arrival) : path ≠ [] := by
  intro he
  rw [he, follow, if_pos rfl] at h
  cases h

/-- A path is followed name by name from where it starts. -/
theorem follow_eq (fs : FileSystem) (hpath : path ≠ []) :
    fs.follow path
      = (fs.startOf path).follow linkLimit (Text.splitOn '/' path) := by
  unfold follow startOf
  rw [if_neg hpath]
  by_cases h : Path.isAbsolute path = true
  · rw [if_pos h, if_pos h]
  · rw [if_neg h, if_neg h]

theorem trailOf_wellFormed {t : Trail} (h : t.WellFormed) (names : List Text) :
    (trailOf names t).WellFormed := by
  induction names generalizing t with
  | nil => exact h
  | cons name names ih =>
      refine ih (h.enter ?_ name)
      cases hl : t.entries.lookup name with
      | none => exact .nil
      | some n =>
          cases n with
          | directory es => exact h.entries.of_mem (mem_of_lookup_eq hl)
          | file _ _ => exact .nil
          | link _ => exact .nil

/-- The trail a path starts from is well-formed, be it that of the top or of
the current directory. -/
theorem WellFormed.startOf (h : fs.WellFormed) (path : Path) :
    (fs.startOf path).WellFormed := by
  have htop : Trail.WellFormed ⟨[], fs.top⟩ := ⟨by simp, h⟩
  unfold FileSystem.startOf
  split
  · exact htop
  · exact trailOf_wellFormed htop fs.here

/-- A name joined to a path is followed from where the path is. -/
theorem startOf_join (hpath : path ≠ []) (hname : Path.IsName name) :
    fs.startOf (Path.join path name) = fs.startOf path := by
  unfold startOf
  rw [Path.isAbsolute_join hpath hname.not_isAbsolute]

/-- Following a path and then the name of an entry. -/
theorem follow_join {t : Trail} (h : fs.follow path = .ok (.directory t))
    (hname : Path.IsName name) :
    ∃ left, fs.follow (Path.join path name) = t.follow left [name] := by
  have hpath := ne_nil_of_follow h
  obtain ⟨front, blanks, hsplit, hblanks, hjoin, -⟩ :=
    Path.splitOn_join hpath hname.not_isAbsolute
  rw [follow_eq fs hpath, hsplit] at h
  rw [follow_eq fs (Path.join_ne_nil hname), startOf_join hpath hname, hjoin,
    Text.splitOn_of_notMem hname.notMem_slash]
  obtain ⟨left, hleads⟩ := Trail.leads_of_follow h
  have hfront : Trail.Leads (fs.startOf path) linkLimit front t left := by
    rcases hblanks with rfl | rfl
    · rwa [List.append_nil] at hleads
    · exact hleads.of_concat_blank
  exact ⟨left, hfront.follow_append [name]⟩

end FileSystem

namespace Walk

variable {w : Walk} {dir : Path} {es inner : Entries} {name : Text}

/-- Where the entries of a listing stand. -/
theorem exists_follow_of_listing (h : w.listing dir = es) (hes : es ≠ []) :
    ∃ t, w.fs.follow dir = .ok (.directory t) ∧ t.entries = es := by
  unfold listing FileSystem.entries FileSystem.find at h
  split at h
  · exact absurd h.symm hes
  · cases hf : w.fs.follow dir with
    | error e =>
        rw [hf] at h
        exact absurd h.symm hes
    | ok arrival =>
        rw [hf] at h
        cases arrival with
        | directory t => exact ⟨t, rfl, h⟩
        | file above name content modified => exact absurd h.symm hes
        | missing above name => exact absurd h.symm hes

/-- What a walk lists is the inside of a well-formed directory. -/
theorem listing_wellFormed (hfs : w.fs.WellFormed) (dir : Path) :
    (FileNode.directory (w.listing dir)).WellFormed := by
  by_cases hes : w.listing dir = []
  · rw [hes]
    exact .nil
  · obtain ⟨t, hfollow, ht⟩ := exists_follow_of_listing rfl hes
    rw [FileSystem.follow_eq _ (FileSystem.ne_nil_of_follow hfollow)] at hfollow
    obtain ⟨left, hleads⟩ := Trail.leads_of_follow hfollow
    rw [← ht]
    exact (hleads.wellFormed (hfs.startOf dir)).entries

/-- A path with a directory in front does not stand for the standard input. -/
theorem isStandardInput_join (hdir : dir ≠ []) (hname : Path.IsName name) :
    isStandardInput (Path.join dir name) = false := by
  have hslash := Path.slash_mem_join hdir hname
  unfold isStandardInput
  rw [beq_eq_false_iff_ne]
  intro he
  rw [he] at hslash
  simp at hslash

/-- The entries of a directory that a listing names are listed below it. -/
theorem listing_join (hfs : w.fs.WellFormed) (h : w.listing dir = es)
    (hmem : (name, .directory inner) ∈ es) :
    w.listing (Path.join dir name) = inner := by
  have hwf := listing_wellFormed hfs dir
  rw [h] at hwf
  obtain ⟨t, hfollow, ht⟩ :=
    exists_follow_of_listing h (List.ne_nil_of_mem hmem)
  have hname := hwf.isEntryName hmem
  obtain ⟨left, hjoin⟩ := FileSystem.follow_join hfollow hname.toIsName
  have hdir := FileSystem.ne_nil_of_follow hfollow
  have hlookup : t.entries.lookup name = some (.directory inner) := by
    rw [ht]
    exact hwf.lookup_eq hmem
  rw [Trail.follow, if_neg (by simp [hname.ne_nil, hname.ne_here]),
    if_neg hname.ne_up, if_neg (by have := hname.short; omega),
    hlookup] at hjoin
  unfold listing FileSystem.entries FileSystem.find
  rw [isStandardInput_join hdir hname.toIsName, hjoin]
  simp [Trail.follow, Trail.enter, Trail.entries]

end Walk

end SourceDigest
