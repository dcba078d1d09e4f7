import SpinnerMarkup.Files.Disk
import SpinnerMarkup.Proofs.NameOrder
import SpinnerMarkup.Proofs.PathParts

/-! What a scan finds, and in which order.

In a tree every directory gives each of its entries a name of its own (`IsTree`). There the walk comes
by a place exactly when a file is there and no directory on the way has a name that is not entered
(`mem_filesBelow_iff`). It comes by the places in the order of the bytes of their names, name by name
(`filesBelow_pairwise`). The path that the walk has taken to a place has the parts of the start and then
the names (`parts_descend`), so paths are walked in the order of the bytes of their parts. Told from the
root or not, each path that a scan gives leads back to the walked one (`scanFiles_finds`). -/
namespace SpinnerMarkup

open Text

/-! ### Trees -/

namespace Node

/-- A node whose directories give each of their entries a name of its own. -/
inductive IsTree : Node → Prop where
  | file (contents : Contents) : IsTree (.file contents)
  | link (target : Text) : IsTree (.link target)
  | dir {entries : List (Text × Node)} (different : (entries.map Prod.fst).Nodup)
      (isName : ∀ e ∈ entries, Path.IsName e.1) (below : ∀ e ∈ entries, IsTree e.2) :
      IsTree (.dir entries)

theorem lookup_eq_some_iff_mem {entries : List (Text × Node)} (h : (entries.map Prod.fst).Nodup)
    {name : Text} {node : Node} : entries.lookup name = some node ↔ (name, node) ∈ entries := by
  rw [List.lookup_eq_some_iff]
  constructor
  · rintro ⟨l, r, rfl, -⟩
    simp
  · intro hmem
    obtain ⟨l, r, rfl⟩ := List.append_of_mem hmem
    refine ⟨l, r, rfl, fun e he => ?_⟩
    rw [List.map_append, List.map_cons, List.nodup_append] at h
    have hne := h.2.2 e.1 (List.mem_map_of_mem he) name (List.mem_cons_self ..)
    simpa using hne.symm

/-- What is found one name further down. -/
theorem get?_cons_eq_some_iff {entries : List (Text × Node)} (h : (entries.map Prod.fst).Nodup)
    {name : Text} {names : List Text} {node : Node} :
    get? (name :: names) (.dir entries) = some node ↔
      ∃ child, (name, child) ∈ entries ∧ get? names child = some node := by
  rw [get?, Option.bind_eq_some_iff]
  simp only [lookup_eq_some_iff_mem h]

theorem isTree_get? {node child : Node} (h : node.IsTree) {place : List Text}
    (hchild : node.get? place = some child) : child.IsTree ∧ ∀ name ∈ place, Path.IsName name := by
  induction h generalizing place child with
  | file | link =>
    cases place with
    | cons => cases hchild
    | nil =>
      obtain rfl := Option.some.inj hchild
      exact ⟨by constructor, by simp⟩
  | dir different isName below ih =>
    cases place with
    | nil =>
      obtain rfl := Option.some.inj hchild
      exact ⟨.dir different isName below, by simp⟩
    | cons name names =>
      obtain ⟨next, hnext, hget⟩ := (get?_cons_eq_some_iff different).1 hchild
      obtain ⟨htree, hnames⟩ := ih (name, next) hnext hget
      exact ⟨htree, List.forall_mem_cons.2 ⟨isName (name, next) hnext, hnames⟩⟩

/-! ### Where the walk comes by -/

/-- A file that no directory on the way keeps the walk from. -/
structure Reached (node : Node) (place : List Text) : Prop where
  isFile : ∃ contents, node.get? place = some (.file contents)
  entered : ∀ name ∈ place.dropLast, name ∉ skippedNames

theorem entryFiles_eq (entries : List (Text × Node)) :
    entryFiles entries =
      entries.map fun e => (e.1, if isSkipped e.1 e.2 then [] else filesBelow e.2) := by
  induction entries with
  | nil => rfl
  | cons e entries ih => rw [entryFiles, ih]; rfl

theorem mem_filesBelow_dir {entries : List (Text × Node)} {place : List Text} :
    place ∈ filesBelow (.dir entries) ↔ ∃ name child names, (name, child) ∈ entries ∧
      place = name :: names ∧ isSkipped name child = false ∧ names ∈ filesBelow child := by
  rw [filesBelow, List.mem_flatMap]
  simp only [(sortByName_perm _).mem_iff, entryFiles_eq, List.mem_map]
  constructor
  · rintro ⟨-, ⟨⟨name, child⟩, he, rfl⟩, names, hnames, rfl⟩
    cases hskip : isSkipped name child with
    | true => simp [hskip] at hnames
    | false => exact ⟨name, child, names, he, rfl, hskip, by simpa [hskip] using hnames⟩
  · rintro ⟨name, child, names, he, rfl, hskip, hnames⟩
    exact ⟨_, ⟨(name, child), he, rfl⟩, names, by simpa [hskip] using hnames, rfl⟩

/-- A name keeps the walk from a file only if it is that of a directory on the way. -/
theorem isSkipped_eq_false_iff {child : Node} {names : List Text} {contents : Contents}
    (h : child.get? names = some (.file contents)) (name : Text) :
    isSkipped name child = false ↔ names = [] ∨ name ∉ skippedNames := by
  cases names with
  | nil =>
    obtain rfl : child = .file contents := Option.some.inj h
    exact iff_of_true rfl (.inl rfl)
  | cons next names =>
    cases child with
    | file | link => cases h
    | dir entries => simp [isSkipped]

theorem forall_mem_dropLast_cons {P : Text → Prop} (name : Text) (names : List Text) :
    (∀ n ∈ (name :: names).dropLast, P n) ↔ (names = [] ∨ P name) ∧ ∀ n ∈ names.dropLast, P n := by
  cases names <;> simp

theorem reached_cons_iff {entries : List (Text × Node)} (h : (entries.map Prod.fst).Nodup) {name : Text}
    {names : List Text} : Reached (.dir entries) (name :: names) ↔
      ∃ child, (name, child) ∈ entries ∧ isSkipped name child = false ∧ Reached child names := by
  constructor
  · rintro ⟨⟨contents, hget⟩, hentered⟩
    obtain ⟨child, hmem, hchild⟩ := (get?_cons_eq_some_iff h).1 hget
    obtain ⟨hname, hnames⟩ := (forall_mem_dropLast_cons name names).1 hentered
    exact ⟨child, hmem, (isSkipped_eq_false_iff hchild name).2 hname, ⟨contents, hchild⟩, hnames⟩
  · rintro ⟨child, hmem, hskip, ⟨contents, hchild⟩, hnames⟩
    have hname := (isSkipped_eq_false_iff hchild name).1 hskip
    exact ⟨⟨contents, (get?_cons_eq_some_iff h).2 ⟨child, hmem, hchild⟩⟩,
      (forall_mem_dropLast_cons name names).2 ⟨hname, hnames⟩⟩

/-- **The walk comes by the files that no directory on the way keeps it from.** -/
theorem mem_filesBelow_iff {node : Node} (h : node.IsTree) {place : List Text} :
    place ∈ node.filesBelow ↔ Reached node place := by
  induction h generalizing place with
  | file contents =>
    cases place with
    | nil => exact iff_of_true (List.mem_singleton_self []) ⟨⟨contents, rfl⟩, by simp⟩
    | cons name names =>
      refine iff_of_false (by simp [filesBelow]) fun h => ?_
      obtain ⟨contents, hget⟩ := h.isFile
      cases hget
  | link target =>
    refine iff_of_false (by simp [filesBelow]) fun h => ?_
    obtain ⟨contents, hget⟩ := h.isFile
    cases place <;> cases hget
  | dir different isName below ih =>
    rw [mem_filesBelow_dir]
    constructor
    · rintro ⟨name, child, names, hmem, rfl, hskip, hnames⟩
      exact (reached_cons_iff different).2 ⟨child, hmem, hskip, (ih (name, child) hmem).1 hnames⟩
    · intro h
      cases place with
      | nil =>
        obtain ⟨contents, hget⟩ := h.isFile
        cases hget
      | cons name names =>
        obtain ⟨child, hmem, hskip, hnames⟩ := (reached_cons_iff different).1 h
        exact ⟨name, child, names, hmem, rfl, hskip, (ih (name, child) hmem).2 hnames⟩

/-! ### In which order -/

/-- **The walk comes by places in the order of the bytes of their names**, name by name. -/
theorem filesBelow_pairwise {node : Node} (h : node.IsTree) :
    node.filesBelow.Pairwise fun p q => p.map bytes < q.map bytes := by
  induction h with
  | file | link => simp [filesBelow]
  | @dir entries different isName below ih =>
    have hnames : ((entryFiles entries).map Prod.fst).Nodup := by
      rw [entryFiles_eq, List.map_map]
      exact different
    rw [filesBelow, List.pairwise_flatMap]
    constructor
    · -- below one entry
      intro e he
      rw [(sortByName_perm _).mem_iff, entryFiles_eq, List.mem_map] at he
      obtain ⟨⟨name, child⟩, he, rfl⟩ := he
      rw [List.pairwise_map]
      cases hskip : isSkipped name child with
      | true => simp
      | false =>
        refine List.Pairwise.imp (fun hlt => ?_) (ih (name, child) he)
        exact List.cons_lt_cons_iff.2 (.inr ⟨rfl, hlt⟩)
    · -- below one entry and below a later one
      refine (sortByName_pairwise hnames).imp fun {e f} hlt p hp q hq => ?_
      obtain ⟨names, -, rfl⟩ := List.mem_map.1 hp
      obtain ⟨names', -, rfl⟩ := List.mem_map.1 hq
      exact List.cons_lt_cons_iff.2 (.inl hlt)

end Node

theorem Disk.isTree_of_directory? {d : Disk} (h : d.top.IsTree) {p : Path} {entries : List (Text × Node)}
    (hdir : d.directory? p = some entries) : (Node.dir entries).IsTree := by
  unfold directory? at hdir
  split at hdir
  · cases hdir
  · split at hdir
    · next place hget =>
      obtain rfl := Option.some.inj hdir
      exact (Node.isTree_get? h hget).1
    · cases hdir

/-! ### Extensions -/

/-- What stands after the last dot of a name that has something before that dot. -/
def IsExtension (extension name : Text) : Prop :=
  '.' ∉ extension ∧ ∃ stem, stem ≠ [] ∧ name = stem ++ '.' :: extension

theorem Path.extensionOf?_eq_some_iff {name extension : Text} :
    Path.extensionOf? name = some extension ↔ IsExtension extension name := by
  unfold Path.extensionOf?
  constructor
  · intro h
    split at h
    · cases h
    · next hstem =>
      obtain rfl := Option.some.inj h
      cases hr : name.reverse.dropWhile (· != '.') with
      | nil => exact absurd (by rw [hr]; rfl) hstem
      | cons c r =>
      have hr' : r ≠ [] := fun hnil => hstem (by rw [hr, hnil]; rfl)
      have hsplit := (dropWhile_ne_split hr).2
      refine ⟨fun hmem => ?_, r.reverse, by simpa using hr', ?_⟩
      · have hdot := List.mem_takeWhile_imp (List.mem_reverse.1 hmem)
        simp at hdot
      · have hname := congrArg List.reverse hsplit
        simpa using hname
  · rintro ⟨hdot, stem, hne, rfl⟩
    have hplain : ∀ c ∈ extension.reverse, (c != '.') = true := fun c hc => by
      simpa using fun heq : c = '.' => hdot (heq ▸ List.mem_reverse.1 hc)
    have hstop : ('.' != '.') = false := by decide
    have hreverse : (stem ++ '.' :: extension).reverse = extension.reverse ++ '.' :: stem.reverse := by simp
    rw [hreverse, dropWhile_stop hplain hstop, takeWhile_stop hplain hstop]
    obtain ⟨c, s, hs⟩ := List.exists_cons_of_ne_nil (mt List.reverse_eq_nil_iff.1 hne)
    simp [hs]

/-- The last name of a place has one of the extensions. -/
def Wanted (extensions : List Text) (place : List Text) : Prop :=
  ∃ name extension, place.getLast? = some name ∧ extension ∈ extensions ∧ IsExtension extension name

theorem hasExtension_iff {extensions : List Text} {place : List Text} :
    hasExtension extensions place = true ↔ Wanted extensions place := by
  simp only [hasExtension, Option.any_eq_true, Option.bind_eq_some_iff, Path.extensionOf?_eq_some_iff,
    List.elem_iff, Wanted]
  constructor
  · rintro ⟨extension, ⟨name, hlast, hname⟩, hmem⟩
    exact ⟨name, extension, hlast, hmem, hname⟩
  · rintro ⟨name, extension, hlast, hmem, hname⟩
    exact ⟨extension, ⟨name, hlast, hname⟩, hmem⟩

/-! ### Walked paths -/

namespace Path

/-- **The path that leads to a place has the parts of the start and then the names.** -/
theorem parts_descend (start : Path) {place : List Text} (h : ∀ name ∈ place, IsName name) :
    (start.descend place).parts = start.parts ++ place.map .name := by
  induction place generalizing start with
  | nil => simp [descend]
  | cons name place ih =>
    obtain ⟨hname, hplace⟩ := List.forall_mem_cons.1 h
    have hstep : start.descend (name :: place) = (start.join ⟨name⟩).descend place := rfl
    rw [hstep, ih (start.join ⟨name⟩) hplace, hname.parts_join, List.append_assoc]
    rfl

/-- The bytes of a part as it is written. -/
def Part.bytes : Part → List UInt8
  | .root => Text.bytes ['/']
  | .current => Text.bytes ['.']
  | .parent => Text.bytes ['.', '.']
  | .name n => Text.bytes n

/-- The order of paths, part by part, by the bytes of the parts. -/
def Before (p q : Path) : Prop := p.parts.map Part.bytes < q.parts.map Part.bytes

theorem before_descend (start : Path) {place place' : List Text} (h : ∀ name ∈ place, IsName name)
    (h' : ∀ name ∈ place', IsName name) (hlt : place.map Text.bytes < place'.map Text.bytes) :
    (start.descend place).Before (start.descend place') := by
  have hbytes : ∀ names : List Text, (names.map Part.name).map Part.bytes = names.map Text.bytes :=
    fun names => List.map_map
  rw [Before, parts_descend start h, parts_descend start h', List.map_append, List.map_append, hbytes,
    hbytes]
  exact List.append_left_lt hlt

theorem Before.parts_ne {p q : Path} (h : p.Before q) : p.parts ≠ q.parts := fun heq => by
  rw [Before, heq] at h
  exact List.lt_irrefl _ h

end Path

/-! ### Scans -/

/-- What a scan from a root finds below a start: the paths it gives, and the places they lead to. -/
structure Finds (root start : Path) (extensions : List Text) (entries : List (Text × Node))
    (found : List Path) (places : List (List Text)) : Prop where
  /-- The places are those of the files with a wanted extension that the walk may reach. -/
  mem_iff : ∀ place, place ∈ places ↔ (Node.dir entries).Reached place ∧ Wanted extensions place
  /-- The paths walked to them are in order. -/
  ordered : (places.map start.descend).Pairwise Path.Before
  /-- Each path leads from the root to where the walk has come. -/
  joined : List.Forall₂ (fun p place => (root.join p).parts = (start.descend place).parts) found places
  /-- No path is given twice. -/
  once : (found.map Path.parts).Nodup

/-- **A scan finds the wanted files, in order and once each**, and from the root its paths lead to them. -/
theorem scanFiles_finds (d : Disk) (hd : d.top.IsTree) (root dir : Path) (extensions : List Text)
    (entries : List (Text × Node)) (h : d.directory? (root.join dir) = some entries) :
    ∃ found places, scanFiles root dir extensions (d.directory? (root.join dir)) = .ok found ∧
      Finds root (root.join dir) extensions entries found places := by
  have htree := Disk.isTree_of_directory? hd h
  let places := (Node.dir entries).filesBelow.filter (hasExtension extensions)
  let told := fun p : Path => (p.from? root).getD p
  have hnames : ∀ place ∈ places, ∀ name ∈ place, Path.IsName name := by
    intro place hplace
    obtain ⟨contents, hget⟩ := ((Node.mem_filesBelow_iff htree).1 (List.mem_of_mem_filter hplace)).isFile
    exact (Node.isTree_get? htree hget).2
  have hback : ∀ place ∈ places, (root.join (told ((root.join dir).descend place))).parts =
      ((root.join dir).descend place).parts := fun place hplace =>
    Path.parts_join_told (Path.parts_descend (root.join dir) (hnames place hplace))
  have hordered : (places.map (root.join dir).descend).Pairwise Path.Before := by
    rw [List.pairwise_map]
    refine List.Pairwise.imp_of_mem (fun hp hq hlt => ?_) ((Node.filesBelow_pairwise htree).filter _)
    exact Path.before_descend (root.join dir) (hnames _ hp) (hnames _ hq) hlt
  refine ⟨places.map fun place => told ((root.join dir).descend place), places, by rw [h]; rfl, ?_, hordered,
    ?_, ?_⟩
  · intro place
    rw [List.mem_filter, Node.mem_filesBelow_iff htree, hasExtension_iff]
  · rw [List.forall₂_map_left_iff, List.forall₂_same]
    exact hback
  · -- paths with the same parts would lead to the same place
    rw [List.map_map, List.Nodup, List.pairwise_map]
    rw [List.pairwise_map] at hordered
    refine List.Pairwise.imp_of_mem (fun hp hq hbefore heq => hbefore.parts_ne ?_) hordered
    rw [← hback _ hp, ← hback _ hq]
    exact Path.parts_join_congr root heq

/-- Sources of a site: files of several kinds, a link, and directories of which one is not entered. -/
def siteSources : List (Text × Node) :=
  [("ui.tsx".toList, .file (.text [])),
    ("ui".toList, .dir [("\u00e9.tsx".toList, .file (.text [])), ("a.tsx".toList, .file (.text [])),
      ("B.jsx".toList, .file (.text []))]),
    (".tsx".toList, .file (.text [])),
    ("dist".toList, .dir [("page.tsx".toList, .file (.text []))]),
    ("build.tsx".toList, .dir [("a.b.tsx".toList, .file (.text [])), ("a.tsx.md".toList, .file (.text []))]),
    ("page.tsx".toList, .link "ui.tsx".toList)]

/-- The sources below a directory that is not entered from further up, and a link to it. -/
def siteDisk : Disk where
  top := .dir [("web".toList, .dir [("dist".toList, .dir siteSources)]), ("site".toList, .link "web".toList)]
  here := []

theorem siteDisk_isTree : siteDisk.top.IsTree := by
  have hfiles : ∀ names : List Text, ∀ e ∈ names.map fun n => (n, Node.file (.text [])), e.2.IsTree := by
    intro names e he
    obtain ⟨name, -, rfl⟩ := List.mem_map.1 he
    exact .file _
  have hui : (Node.dir [("\u00e9.tsx".toList, .file (.text [])), ("a.tsx".toList, .file (.text [])),
      ("B.jsx".toList, .file (.text []))]).IsTree :=
    .dir (by decide +kernel) (by decide +kernel)
      (hfiles ["\u00e9.tsx".toList, "a.tsx".toList, "B.jsx".toList])
  have hdist : (Node.dir [("page.tsx".toList, .file (.text []))]).IsTree :=
    .dir (by decide +kernel) (by decide +kernel) (hfiles ["page.tsx".toList])
  have hbuild : (Node.dir [("a.b.tsx".toList, .file (.text [])),
      ("a.tsx.md".toList, .file (.text []))]).IsTree :=
    .dir (by decide +kernel) (by decide +kernel) (hfiles ["a.b.tsx".toList, "a.tsx.md".toList])
  have hsources : (Node.dir siteSources).IsTree := by
    refine .dir (by decide +kernel) (by decide +kernel) ?_
    simp only [siteSources, List.forall_mem_cons]
    exact ⟨.file _, hui, .file _, hdist, hbuild, .link _, by simp⟩
  have hweb : (Node.dir [("dist".toList, .dir siteSources)]).IsTree :=
    .dir (by decide +kernel) (by decide +kernel) (by simpa using hsources)
  refine .dir (by decide +kernel) (by decide +kernel) ?_
  simp only [List.forall_mem_cons]
  exact ⟨hweb, .link _, by simp⟩

/-- The start may have a name that is not entered, and the way to it may lead over a link. -/
theorem siteDisk_scanned :
    siteDisk.top.IsTree ∧ siteDisk.directory? (Path.join ⟨"site".toList⟩ ⟨"./dist/".toList⟩) = some siteSources ∧
      ∃ places, Finds ⟨"site".toList⟩ (Path.join ⟨"site".toList⟩ ⟨"./dist/".toList⟩)
        ["tsx".toList, "jsx".toList] siteSources
        [⟨"dist/build.tsx/a.b.tsx".toList⟩, ⟨"dist/ui/B.jsx".toList⟩, ⟨"dist/ui/a.tsx".toList⟩,
          ⟨"dist/ui/\u00e9.tsx".toList⟩, ⟨"dist/ui.tsx".toList⟩] places := by
  have hdir : siteDisk.directory? (Path.join ⟨"site".toList⟩ ⟨"./dist/".toList⟩) = some siteSources := by rfl
  obtain ⟨found, places, hscan, hfinds⟩ := scanFiles_finds siteDisk siteDisk_isTree ⟨"site".toList⟩
    ⟨"./dist/".toList⟩ ["tsx".toList, "jsx".toList] siteSources hdir
  have hfound : scanFiles ⟨"site".toList⟩ ⟨"./dist/".toList⟩ ["tsx".toList, "jsx".toList]
      (some siteSources) = .ok [⟨"dist/build.tsx/a.b.tsx".toList⟩, ⟨"dist/ui/B.jsx".toList⟩,
        ⟨"dist/ui/a.tsx".toList⟩, ⟨"dist/ui/\u00e9.tsx".toList⟩, ⟨"dist/ui.tsx".toList⟩] := by
    decide +kernel
  rw [hdir, hfound] at hscan
  obtain rfl := Except.ok.inj hscan
  exact ⟨siteDisk_isTree, hdir, places, hfinds⟩

end SpinnerMarkup
