import Mathlib
import BpScript.Builtin.Call
import BpScript.Proofs.Resolution

/-!
# A workspace in memory is a finite map

A workspace in memory keeps its files in a table, under the components of their paths.  The host
joins a name to the root as it is; scripts resolve it first, which drops a single point at its
front.  The two agree because the components of what they arrive at are the same: those of the name,
behind the components of the root if the name is relative.

* `FileRequest` — what is asked of a workspace; `Workspace.serve` answers it.
* `Global.call_serves` — the functions on files make such requests, and report what fails.
* `FileMap` — a finite map from components to texts, and `FileMap.serve`, the same requests on it.
* `Workspace.Mirrors` — a workspace holds the files of a map.  `Mirrors.serve` is one request,
  `Mirrors.serveAll` a sequence.
* **`memory_serves_as_map`** — requests to a workspace in memory and to an empty map.
-/

namespace BpScript

/-! ## Requests -/

/-- What is asked of the files of a workspace, by name.  Adding and looking are for the host, which
takes names from the root as they are; the others resolve the name as the functions on files do. -/
inductive FileRequest where
  | add (name text : String)
  | look (name : String)
  | read (name : String)
  | write (name text : String)
  | delete (name : String)

/-- A text if one was asked for and found, or what is wrong. -/
abbrev FileAnswer := Except FileError (Option String)

/-- Requests one after the other, with their answers in order. -/
def FileRequest.serveAll {σ : Type} (serve : σ → FileRequest → FileAnswer × σ) (s : σ) :
    List FileRequest → List FileAnswer × σ
  | [] => ([], s)
  | request :: requests =>
    let (answer, s) := serve s request
    let (answers, s) := serveAll serve s requests
    (answer :: answers, s)

/-- The answer to a request, and the workspace after it.  If the request fails, that is the
workspace before it. -/
def Workspace.serve (w : Workspace) : FileRequest → FileAnswer × Workspace
  | .add name text => (.ok none, w.withFile name text)
  | .look name => (.ok (w.file? name), w)
  | .read name => ((w.read (w.resolveFile name)).map some, w)
  | .write name text =>
    match w.write (w.resolveFile name) text with
    | .ok written => (.ok none, written)
    | .error e => (.error e, w)
  | .delete name =>
    match w.delete (w.resolveFile name) with
    | .ok left => (.ok none, left)
    | .error e => (.error e, w)

/-! ## Scripts

Scripts make three of the requests, by the functions that every root scope has.
-/

/-- The call that makes a request. -/
def FileRequest.call? : FileRequest → Option (Global × List Value)
  | .add _ _ | .look _ => none
  | .read name => some (.readFile, [.text name])
  | .write name text => some (.writeFile, [.text name, .text text])
  | .delete name => some (.deleteFile, [.text name])

/-- What the call makes of the answer. -/
def FileAnswer.result : FileAnswer → Except Fault Value
  | .ok (some text) => .ok (.text text)
  | .ok none => .ok .null
  | .error e => .error (.io e.message)

/-- A call that makes a request changes nothing but the workspace. -/
theorem Global.call_serves {request : FileRequest} {f : Global} {args : List Value}
    (h : request.call? = some (f, args)) (m : Machine) :
    (f.call args).run m = (FileAnswer.result (m.workspace.serve request).1,
      { m with workspace := (m.workspace.serve request).2 }) := by
  cases request with
  | add name text => cases h
  | look name => cases h
  | read name =>
    cases h
    show (orIo (m.workspace.read (m.workspace.resolveFile name)) >>= fun text =>
      pure (Value.text text) : Action Value).run m = _
    rw [Workspace.serve]
    cases m.workspace.read (m.workspace.resolveFile name) <;> rfl
  | write name text =>
    cases h
    show (setWorkspace (m.workspace.write (m.workspace.resolveFile name) text)).run m = _
    rw [Workspace.serve]
    cases m.workspace.write (m.workspace.resolveFile name) text <;> rfl
  | delete name =>
    cases h
    show (setWorkspace (m.workspace.delete (m.workspace.resolveFile name))).run m = _
    rw [Workspace.serve]
    cases m.workspace.delete (m.workspace.resolveFile name) <;> rfl

/-! ## The map -/

/-- Texts by the components of their paths. -/
abbrev FileMap := Finmap fun _ : List Path.Component => String

namespace FileMap

/-- Where a name stands in the map: at its own components if it is absolute, and otherwise at those
that its names make behind `/workspace`. -/
def key (name : String) : List Path.Component :=
  if Path.isAbsolute name then .root :: Path.names name
  else .root :: .normal "workspace" :: Path.names name

/-- The report that nothing stands at a name. -/
def missing (name : String) : FileAnswer :=
  .error (.missing (Workspace.resolveFileFrom Workspace.memoryRoot name))

/-- The same requests, answered by a map. -/
def serve (files : FileMap) : FileRequest → FileAnswer × FileMap
  | .add name text | .write name text => (.ok none, files.insert (key name) text)
  | .look name => (.ok (files.lookup (key name)), files)
  | .read name =>
    match files.lookup (key name) with
    | some text => (.ok (some text), files)
    | none => (missing name, files)
  | .delete name =>
    match files.lookup (key name) with
    | some _ => (.ok none, files.erase (key name))
    | none => (missing name, files)

end FileMap

/-! ## Keys -/

namespace Workspace

theorem components_memoryRoot : Path.components memoryRoot = [.root, .normal "workspace"] := by
  decide

/-- A name that scripts resolve stands at its key. -/
theorem components_resolve_memoryRoot (name : String) :
    Path.components (resolveFileFrom memoryRoot name) = FileMap.key name := by
  rw [components_resolveFileFrom, FileMap.key, components_memoryRoot]
  split
  · next habsolute => exact Path.components_of_absolute habsolute
  · rfl

/-- A name that the host joins to the root stands at its key. -/
theorem components_join_memoryRoot (name : String) :
    Path.components (Path.join memoryRoot name) = FileMap.key name := by
  rw [FileMap.key]
  split
  · next habsolute =>
    rw [Path.join_of_absolute habsolute, Path.components_of_absolute habsolute]
  · next hrelative =>
    rw [Path.components_join (by decide) (Bool.eq_false_iff.2 hrelative), components_memoryRoot]
    rfl

/-! ## A workspace that holds the files of a map -/

/-- The workspace is in memory, at the usual root, and has the files of the map. -/
structure Mirrors (w : Workspace) (files : FileMap) : Prop where
  root : w.root = memoryRoot
  holds : ∃ table : Table (List Path.Component) String, w.storage = .memory table ∧
    (Table.keys table).Nodup ∧ ∀ key, Table.get? key table = files.lookup key

variable {w : Workspace} {files : FileMap}

theorem mirrors_memory : memory.Mirrors ∅ :=
  ⟨rfl, [], rfl, List.nodup_nil, fun key => by rw [Finmap.lookup_empty, Table.get?]⟩

namespace Mirrors

theorem read (h : w.Mirrors files) (path : String) :
    w.read path = match files.lookup (Path.components path) with
      | some text => .ok text
      | none => .error (.missing path) := by
  obtain ⟨table, hstorage, -, hget⟩ := h.holds
  rw [Workspace.read, hstorage]
  show (match Table.get? _ table with | some text => _ | none => _) = _
  rw [hget]

theorem write (h : w.Mirrors files) (path text : String) :
    ∃ written, w.write path text = .ok written ∧
      written.Mirrors (files.insert (Path.components path) text) := by
  obtain ⟨table, hstorage, hnodup, hget⟩ := h.holds
  rw [Workspace.write, hstorage]
  refine ⟨_, rfl, h.root, _, rfl, Table.nodup_keys_set hnodup _ _, fun key => ?_⟩
  rw [Table.get?_set]
  by_cases hkey : key = Path.components path
  · rw [if_pos hkey, hkey, Finmap.lookup_insert]
  · rw [if_neg hkey, Finmap.lookup_insert_of_ne _ hkey, hget]

theorem delete_of_missing (h : w.Mirrors files) {path : String}
    (hmissing : files.lookup (Path.components path) = none) :
    w.delete path = .error (.missing path) := by
  obtain ⟨table, hstorage, -, hget⟩ := h.holds
  have hhas : Table.has (Path.components path) table = false := by
    rw [Table.has, hget, hmissing]
    rfl
  rw [Workspace.delete, hstorage]
  exact if_neg (by simp [hhas])

theorem delete_of_found (h : w.Mirrors files) {path text : String}
    (hfound : files.lookup (Path.components path) = some text) :
    ∃ left, w.delete path = .ok left ∧ left.Mirrors (files.erase (Path.components path)) := by
  obtain ⟨table, hstorage, hnodup, hget⟩ := h.holds
  have hhas : Table.has (Path.components path) table = true := by
    rw [Table.has, hget, hfound]
    rfl
  rw [Workspace.delete, hstorage]
  refine ⟨_, if_pos hhas, h.root, _, rfl, Table.nodup_keys_erase hnodup _, fun key => ?_⟩
  rw [Table.get?_erase hnodup]
  by_cases hkey : key = Path.components path
  · rw [if_pos hkey, hkey, Finmap.lookup_erase]
  · rw [if_neg hkey, Finmap.lookup_erase_ne hkey, hget]

/-- What the host finds at a name is what stands at its key. -/
theorem file? (h : w.Mirrors files) (name : String) :
    w.file? name = files.lookup (FileMap.key name) := by
  rw [Workspace.file?, h.root, h.read, components_join_memoryRoot]
  cases files.lookup (FileMap.key name) <;> rfl

theorem read_resolveFile (h : w.Mirrors files) (name : String) :
    w.read (w.resolveFile name) = match files.lookup (FileMap.key name) with
      | some text => .ok text
      | none => .error (.missing (resolveFileFrom memoryRoot name)) := by
  rw [resolveFile, h.root, h.read, components_resolve_memoryRoot]

theorem withFile (h : w.Mirrors files) (name text : String) :
    (w.withFile name text).Mirrors (files.insert (FileMap.key name) text) := by
  obtain ⟨written, hwrite, hmirrors⟩ := h.write (Path.join memoryRoot name) text
  rw [Workspace.withFile, h.root, hwrite, ← components_join_memoryRoot]
  exact hmirrors

/-- **One request.**  The workspace and the map give the same answer, and match again. -/
theorem serve (h : w.Mirrors files) (request : FileRequest) :
    (w.serve request).1 = (files.serve request).1 ∧
      (w.serve request).2.Mirrors (files.serve request).2 := by
  cases request with
  | add name text => exact ⟨rfl, h.withFile name text⟩
  | look name => exact ⟨congrArg Except.ok (h.file? name), h⟩
  | read name =>
    rw [Workspace.serve, FileMap.serve, h.read_resolveFile]
    cases files.lookup (FileMap.key name) <;> exact ⟨rfl, h⟩
  | write name text =>
    obtain ⟨written, hwrite, hmirrors⟩ := h.write (resolveFileFrom memoryRoot name) text
    rw [Workspace.serve, resolveFile, h.root, hwrite]
    rw [components_resolve_memoryRoot] at hmirrors
    exact ⟨rfl, hmirrors⟩
  | delete name =>
    have hkey := components_resolve_memoryRoot name
    rw [Workspace.serve, FileMap.serve, resolveFile, h.root]
    cases hlookup : files.lookup (FileMap.key name) with
    | none =>
      rw [h.delete_of_missing (hkey ▸ hlookup)]
      exact ⟨rfl, h⟩
    | some text =>
      obtain ⟨left, hdelete, hmirrors⟩ := h.delete_of_found (hkey ▸ hlookup)
      rw [hdelete]
      exact ⟨rfl, hkey ▸ hmirrors⟩

/-- Any number of requests. -/
theorem serveAll (requests : List FileRequest) (h : w.Mirrors files) :
    (FileRequest.serveAll Workspace.serve w requests).1 =
        (FileRequest.serveAll FileMap.serve files requests).1 ∧
      (FileRequest.serveAll Workspace.serve w requests).2.Mirrors
        (FileRequest.serveAll FileMap.serve files requests).2 := by
  induction requests generalizing w files with
  | nil => exact ⟨rfl, h⟩
  | cons request requests ih =>
    obtain ⟨hanswer, hmirrors⟩ := h.serve request
    obtain ⟨hanswers, hrest⟩ := ih hmirrors
    exact ⟨congrArg₂ List.cons hanswer hanswers, hrest⟩

end Mirrors

/-- A request that fails leaves the workspace as it was. -/
theorem serve_of_error {request : FileRequest} {e : FileError}
    (h : (w.serve request).1 = .error e) : (w.serve request).2 = w := by
  cases request with
  | add name text => cases h
  | look name => rfl
  | read name => rfl
  | write name text | delete name =>
    rw [serve] at h ⊢
    split at h
    · cases h
    · rfl

/-- **A workspace in memory is a finite map, from the components of names to texts.**  Whatever is
asked of it, one request after the other, gets the answer that an empty map gives, its failures
included; then the host and the scripts find the same at every name, and what fails changes
nothing. -/
theorem memory_serves_as_map (requests : List FileRequest) :
    let served := FileRequest.serveAll serve memory requests
    let mapped := FileRequest.serveAll FileMap.serve ∅ requests
    served.1 = mapped.1 ∧
      (∀ name, served.2.file? name = mapped.2.lookup (FileMap.key name)) ∧
      (∀ name, served.2.file? name = (served.2.read (served.2.resolveFile name)).toOption) ∧
      ∀ request e, (served.2.serve request).1 = .error e →
        (served.2.serve request).2 = served.2 := by
  intro served mapped
  obtain ⟨hanswers, hmirrors⟩ := mirrors_memory.serveAll requests
  refine ⟨hanswers, hmirrors.file?, fun name => ?_, fun request e h => serve_of_error h⟩
  rw [hmirrors.file?, hmirrors.read_resolveFile]
  cases mapped.2.lookup (FileMap.key name) <;> rfl

/-- A file that is added by one spelling of its name and deleted by another cannot be deleted
again. -/
theorem deleted_file_is_missing :
    let served := FileRequest.serveAll serve memory
      [.add ".//d/./a.txt" "hello", .delete "/workspace/d//a.txt"]
    (served.2.serve (.delete "d/a.txt/")).1 =
        .error (.missing "/workspace/d/a.txt/") ∧
      (served.2.serve (.delete "d/a.txt/")).2 = served.2 := by
  intro served
  have hmissing : (served.2.serve (.delete "d/a.txt/")).1 =
      .error (.missing "/workspace/d/a.txt/") := by
    decide
  exact ⟨hmissing, (memory_serves_as_map
    [.add ".//d/./a.txt" "hello", .delete "/workspace/d//a.txt"]).2.2.2 _ _ hmissing⟩

end Workspace

end BpScript
