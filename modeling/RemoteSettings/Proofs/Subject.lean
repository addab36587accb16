import Mathlib.Data.List.DropRight
import RemoteSettings.Config.Basic
import RemoteSettings.Proofs.Text.Percent
import RemoteSettings.Store.Remote

/-!
# What a request is about

The service is told what to do by a method and a path.  The ids in a path are segments of their
own: an encoded id holds no slash, so a path falls apart into the segments of the root and those
that the ids were put into, and these can be told from each other by their number and by the
method.  A setting may be called like the resource that takes batches; its path is then that of the
batch, but settings are read and set while batches are sent.

## Main definitions

* `Subject` — what an operation on settings is about.
* `Subject.method`, `Subject.path`, `Subject.segments` — how the service is told.
* `Remote.subject?` — what an operation is about.
* `Endpoints.segments` — the segments of a path.
* `Endpoints.IsAbsolute` — a path begins with a slash.

## Main results

* `Subject.segments_path` — the segments of a path are those of the root and of the ids.
* `Subject.path_injective` — **a method and a path have one subject**.
* `Endpoints.isAbsolute_path` — below an absolute root every path is absolute.
* `Endpoints.requests_are_unambiguous` — all of this, for the requests that are sent.
-/

namespace RemoteSettings

/-- What an operation on settings is about. -/
inductive Subject
  /-- The settings of a group are fetched. -/
  | group (group : String)
  /-- A setting is fetched. -/
  | setting (group id : String)
  /-- A setting is saved. -/
  | save (group id : String)
  /-- A batch of settings is saved. -/
  | batch (group : String)
  deriving DecidableEq

/-- What an operation is about; the list of groups is about no settings. -/
def Remote.subject? : Remote → Option Subject
  | .fetchGroups => none
  | .fetchSettings group => some (.group group)
  | .fetchSetting group id => some (.setting group id)
  | .saveSetting group id _ => some (.save group id)
  | .saveBatch group _ => some (.batch group)

/-- The segments of a path: what its slashes separate. -/
def Endpoints.segments (path : String) : List String :=
  (path.toList.splitOn '/').map String.ofList

/-- An absolute path begins with a slash. -/
def Endpoints.IsAbsolute (path : String) : Prop := path.toList.head? = some '/'

namespace Subject

/-- What is to be done with the subject. -/
def method : Subject → Method
  | group _ | setting _ _ => .get
  | save _ _ => .put
  | batch _ => .post

/-- The path of the subject. -/
def path (e : Endpoints) : Subject → String
  | group g => e.group g
  | setting g id | save g id => e.setting g id
  | batch g => e.batch g

/-- What the subject adds to the segments of the root. -/
def segments : Subject → List String
  | group g => ["settings", Percent.encode g]
  | setting g id | save g id => ["settings", Percent.encode g, Percent.encode id]
  | batch g => ["settings", Percent.encode g, "batch"]

end Subject

/-! ### Segments -/

namespace Endpoints

theorem segments_append (a b : String) :
    segments (a ++ "/" ++ b) = segments a ++ segments b := by
  have hlist : (a ++ "/" ++ b).toList = a.toList ++ '/' :: b.toList := by simp
  rw [segments, hlist, List.splitOn_append_cons_self, List.map_append]
  rfl

/-- A text without slashes is one segment. -/
theorem segments_eq_singleton {s : String} (h : '/' ∉ s.toList) : segments s = [s] := by
  rw [segments, List.splitOn_eq_singleton h, List.map_singleton, String.ofList_toList]

theorem segments_encode (s : String) : segments (Percent.encode s) = [Percent.encode s] :=
  segments_eq_singleton
    ((Percent.encoded_encode s).notMem (by decide) (by decide) (by decide))

theorem segments_group (e : Endpoints) (g : String) :
    segments (e.group g) = segments e.root ++ ["settings", Percent.encode g] := by
  have hpath : e.group g = e.root ++ "/" ++ "settings" ++ "/" ++ Percent.encode g := by
    simp [group, String.append_assoc]
  rw [hpath, segments_append, segments_append, segments_encode,
    segments_eq_singleton (s := "settings") (by decide), List.append_assoc]
  rfl

end Endpoints

namespace Subject

/-- The segments of a path are those of the root and those of the subject. -/
theorem segments_path (e : Endpoints) (t : Subject) :
    Endpoints.segments (t.path e) = Endpoints.segments e.root ++ t.segments := by
  have hbelow (g s : String) : Endpoints.segments (e.group g ++ "/" ++ s)
      = Endpoints.segments e.root ++ ["settings", Percent.encode g] ++ Endpoints.segments s := by
    rw [Endpoints.segments_append, Endpoints.segments_group]
  cases t with
  | group g => exact e.segments_group g
  | setting g id | save g id =>
    rw [path, Endpoints.setting, hbelow, Endpoints.segments_encode, List.append_assoc]
    rfl
  | batch g =>
    have hpath : e.batch g = e.group g ++ "/" ++ "batch" := by
      simp [Endpoints.batch, String.append_assoc]
    rw [path, hpath, hbelow, Endpoints.segments_eq_singleton (s := "batch") (by decide),
      List.append_assoc]
    rfl

/-- **A method and a path have one subject.**  The number of segments tells groups from settings,
and the method tells what is done with a setting; a setting that bears the name of the batches is
no batch. -/
theorem path_injective (e : Endpoints) {t t' : Subject} (hmethod : t.method = t'.method)
    (hpath : t.path e = t'.path e) : t = t' := by
  have hsegments : t.segments = t'.segments := by
    have := congrArg Endpoints.segments hpath
    rw [segments_path, segments_path] at this
    exact List.append_cancel_left this
  have hencode {a b : String} : Percent.encode a = Percent.encode b ↔ a = b :=
    Percent.encode_injective.eq_iff
  cases t <;> cases t' <;> simp_all [method, segments]

end Subject

theorem Remote.request_of_subject {op : Remote} {t : Subject} (h : op.subject? = some t)
    (e : Endpoints) : (op.request e).method = t.method ∧ (op.request e).path = t.path e := by
  cases op <;> cases h <;> exact ⟨rfl, rfl⟩

/-! ### Absolute paths -/

namespace Endpoints

/-- An absolute text is absolute or empty without the slashes at its end. -/
theorem isAbsolute_dropSlashes {root : String} (h : IsAbsolute root) :
    IsAbsolute (dropSlashes root) ∨ dropSlashes root = "" := by
  have hprefix : (dropSlashes root).toList <+: root.toList := by
    rw [dropSlashes, String.toList_ofList]
    exact List.rdropWhile_prefix (· == '/') root.toList
  cases hroot : (dropSlashes root).toList with
  | nil => exact .inr (String.toList_eq_nil_iff.mp hroot)
  | cons c rest =>
    obtain ⟨tail, htail⟩ := hprefix
    rw [IsAbsolute, ← htail, hroot, List.cons_append, List.head?_cons] at h
    exact .inl (by rw [IsAbsolute, hroot, List.head?_cons, h])

/-- Below an absolute root every path is absolute. -/
theorem isAbsolute_path {root : String} (h : IsAbsolute root) (groups : String) (t : Subject) :
    IsAbsolute (t.path (below root groups)) := by
  have hgroup (g s : String) : IsAbsolute ((below root groups).group g ++ s) := by
    unfold IsAbsolute group below
    rcases isAbsolute_dropSlashes h with hroot | hroot
    · obtain ⟨tail, htail⟩ := List.head?_eq_some_iff.mp hroot
      simp [htail]
    · simp [hroot]
  cases t with
  | group g => simpa [Subject.path] using hgroup g ""
  | setting g id | save g id => simpa [Subject.path, setting, String.append_assoc] using hgroup g _
  | batch g => exact hgroup g _

end Endpoints

theorem Config.isAbsolute_of_validate {c : Config} (h : c.validate = .ok ()) :
    Endpoints.IsAbsolute c.root ∧ Endpoints.IsAbsolute c.groupsPath := by
  unfold validate at h
  split_ifs at h with _ hroot hgroups
  exact ⟨not_not.mp hroot, not_not.mp hgroups⟩

/-! ### The requests that are sent -/

/-- **The service is told exactly what is meant**, wherever it keeps its settings and whatever
texts the ids are.

* Two operations on settings send the same method and path if and only if they do the same with the
  same ids.
* The path of an operation has the segments of the root, and one more for each id.
* An encoded id is a word of plain characters and escapes.  So it begins no segment, no query and
  no fragment, and the id can be read back.
* With a configuration that was not refused, all paths are absolute. -/
theorem Endpoints.requests_are_unambiguous :
    (∀ (e : Endpoints) {op op' : Remote} {t t' : Subject},
      op.subject? = some t → op'.subject? = some t' →
      ((op.request e).method = (op'.request e).method
        ∧ (op.request e).path = (op'.request e).path ↔ t = t'))
    ∧ (∀ (e : Endpoints) {op : Remote} {t : Subject}, op.subject? = some t →
      segments (op.request e).path = segments e.root ++ t.segments)
    ∧ (∀ id : String,
      Percent.Encoded (Percent.encode id).toList
        ∧ (∀ c ∈ ['/', '?', '#'], c ∉ (Percent.encode id).toList)
        ∧ Percent.text? (Percent.encode id) = some id)
    ∧ ∀ c : Config, c.validate = .ok () →
      IsAbsolute c.endpoints.groups ∧ ∀ op : Remote, IsAbsolute (op.request c.endpoints).path := by
  refine ⟨?_, ?_, ?_, ?_⟩
  · intro e op op' t t' ht ht'
    obtain ⟨hmethod, hpath⟩ := Remote.request_of_subject ht e
    obtain ⟨hmethod', hpath'⟩ := Remote.request_of_subject ht' e
    rw [hmethod, hpath, hmethod', hpath']
    refine ⟨fun h => Subject.path_injective e h.1 h.2, ?_⟩
    rintro rfl
    exact ⟨rfl, rfl⟩
  · intro e op t ht
    rw [(Remote.request_of_subject ht e).2, Subject.segments_path]
  · intro id
    refine ⟨Percent.encoded_encode id, ?_, Percent.text?_encode id⟩
    have hmarks : ∀ c ∈ ['/', '?', '#'],
        ¬ Percent.IsPlain c ∧ ¬ Percent.IsHexDigit c ∧ c ≠ '%' := by
      intro c hc
      simp only [List.mem_cons, List.not_mem_nil, or_false] at hc
      rcases hc with rfl | rfl | rfl <;> decide
    intro c hc
    obtain ⟨hplain, hdigit, hpercent⟩ := hmarks c hc
    exact (Percent.encoded_encode id).notMem hplain hdigit hpercent
  · intro c hc
    obtain ⟨hroot, hgroups⟩ := Config.isAbsolute_of_validate hc
    refine ⟨hgroups, fun op => ?_⟩
    cases ht : op.subject? with
    | none =>
      cases op <;> cases ht
      exact hgroups
    | some t =>
      rw [(Remote.request_of_subject ht c.endpoints).2]
      exact isAbsolute_path hroot c.groupsPath t

/-- A setting that is called like the resource that takes batches. -/
def Remote.saveCalledBatch : Remote := .saveSetting "a/b" "batch" (.text "")

/-- A setting that is called like the batches is not taken for them, though their paths are one; and
the default configuration has absolute paths. -/
theorem Endpoints.setting_called_batch_is_no_batch :
    segments (Remote.saveCalledBatch.request ⟨"/wc", "/groups"⟩).path
      = segments "/wc" ++ ["settings", "a%2Fb", "batch"]
    ∧ (Remote.saveCalledBatch.request ⟨"/wc", "/groups"⟩).path
      = ((Remote.saveBatch "a/b" []).request ⟨"/wc", "/groups"⟩).path
    ∧ (Remote.saveCalledBatch.request ⟨"/wc", "/groups"⟩).method
      ≠ ((Remote.saveBatch "a/b" []).request ⟨"/wc", "/groups"⟩).method
    ∧ ({} : Config).validate = .ok ()
    ∧ IsAbsolute (Remote.saveCalledBatch.request ({} : Config).endpoints).path := by
  obtain ⟨hunique, hsegments, -, habsolute⟩ := Endpoints.requests_are_unambiguous
  have hpath : (Remote.saveCalledBatch.request ⟨"/wc", "/groups"⟩).path
      = ((Remote.saveBatch "a/b" []).request ⟨"/wc", "/groups"⟩).path := by decide
  have hsubject : Remote.saveCalledBatch.subject? = some (.save "a/b" "batch") := rfl
  have hwords : (Subject.save "a/b" "batch").segments = ["settings", "a%2Fb", "batch"] := by decide
  have hvalid : ({} : Config).validate = .ok () := by decide
  refine ⟨?_, hpath, fun hmethod => ?_, hvalid, (habsolute {} hvalid).2 _⟩
  · rw [hsegments _ hsubject, hwords]
  · exact absurd ((hunique _ hsubject rfl).mp ⟨hmethod, hpath⟩) (by decide)

end RemoteSettings
