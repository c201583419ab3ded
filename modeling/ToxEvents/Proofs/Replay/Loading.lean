import ToxEvents.Proofs.Replay.Playing
set_option autoImplicit false

namespace ToxEvents
open Wire

namespace Playback

variable {disk : Disk} {path : String} {paths first second : List String}
  {files : List (String × Bytes)} {error : DiskError}

/-- The files that stand at the paths, with what is in them. -/
structure Contents (disk : Disk) (paths : List String) (files : List (String × Bytes)) : Prop where
  named : files.map Prod.fst = paths
  read : ∀ file ∈ files, disk.read file.1 = .ok file.2

/-- The first of the paths that cannot be read, and why. -/
structure Missing (disk : Disk) (paths : List String) (path : String) (error : DiskError) :
    Prop where
  fails : disk.read path = .error error
  first : ∃ before after files, paths = before ++ path :: after ∧ Contents disk before files

theorem Contents.nil : Contents disk [] [] := ⟨rfl, nofun⟩

theorem Contents.cons {bytes : Bytes} (read : disk.read path = .ok bytes)
    (later : Contents disk paths files) :
    Contents disk (path :: paths) ((path, bytes) :: files) where
  named := by rw [List.map_cons, later.named]
  read := List.forall_mem_cons.mpr ⟨read, later.read⟩

theorem contents_append_iff :
    Contents disk (first ++ second) files ↔ ∃ earlier later, files = earlier ++ later ∧
      Contents disk first earlier ∧ Contents disk second later := by
  constructor
  · rintro ⟨hnamed, hread⟩
    obtain ⟨earlier, later, rfl, hearlier, hlater⟩ := List.map_eq_append_iff.mp hnamed
    obtain ⟨hreadEarlier, hreadLater⟩ := List.forall_mem_append.mp hread
    exact ⟨earlier, later, rfl, ⟨hearlier, hreadEarlier⟩, ⟨hlater, hreadLater⟩⟩
  · rintro ⟨earlier, later, rfl, ⟨rfl, hreadEarlier⟩, ⟨rfl, hreadLater⟩⟩
    exact ⟨List.map_append, List.forall_mem_append.mpr ⟨hreadEarlier, hreadLater⟩⟩

theorem contents_or_missing (disk : Disk) (paths : List String) :
    (∃ files, Contents disk paths files) ∨ ∃ path error, Missing disk paths path error := by
  induction paths with
  | nil => exact .inl ⟨[], .nil⟩
  | cons path paths ih =>
    cases hread : disk.read path with
    | error e => exact .inr ⟨path, e, hread, [], paths, [], rfl, .nil⟩
    | ok bytes =>
      rcases ih with ⟨files, hfiles⟩ | ⟨missing, e, hfails, before, after, files, rfl, hbefore⟩
      · exact .inl ⟨_, hfiles.cons hread⟩
      · exact .inr ⟨missing, e, hfails, path :: before, after, _, rfl, hbefore.cons hread⟩

theorem contents_or_missing_append (disk : Disk) (first second : List String) :
    (∃ earlier later, Contents disk first earlier ∧ Contents disk second later) ∨
      ∃ path error, Missing disk (first ++ second) path error := by
  refine (contents_or_missing disk (first ++ second)).imp_left ?_
  rintro ⟨files, contents⟩
  obtain ⟨earlier, later, -, hearlier, hlater⟩ := contents_append_iff.mp contents
  exact ⟨earlier, later, hearlier, hlater⟩

theorem Missing.of_append (missing : Missing disk (first ++ second) path error) :
    Missing disk first path error ∨
      ∃ files, Contents disk first files ∧ Missing disk second path error := by
  obtain ⟨hfails, before, after, files, hsplit, hbefore⟩ := missing
  rcases List.append_eq_append_iff.mp hsplit with
    ⟨middle, rfl, hsecond⟩ | ⟨middle, hfirst, hafter⟩
  · obtain ⟨earlier, later, -, hearlier, hlater⟩ := contents_append_iff.mp hbefore
    exact .inr ⟨earlier, hearlier, hfails, middle, after, later, hsecond, hlater⟩
  · cases middle with
    | nil =>
      rw [List.append_nil] at hfirst
      exact .inr ⟨files, hfirst ▸ hbefore, hfails, [], after, [], hafter.symm, .nil⟩
    | cons head middle =>
      obtain ⟨rfl, rfl⟩ := List.cons.inj hafter
      exact .inl ⟨hfails, before, middle, files, hfirst, hbefore⟩

theorem load_of_contents (contents : Contents disk paths files) :
    load disk paths = (.ok ⟨queue files⟩, (load disk paths).2) := by
  refine Prod.ext ?_ rfl
  obtain ⟨rfl, hread⟩ := contents
  induction files with
  | nil => rfl
  | cons file files ih =>
    obtain ⟨hfirst, hlater⟩ := List.forall_mem_cons.mp hread
    simp only [List.map_cons, load, hfirst, ih hlater]
    rfl

theorem load_of_missing (missing : Missing disk paths path error) :
    load disk paths = (.error (.batchUnreadable path error), (load disk paths).2) := by
  refine Prod.ext ?_ rfl
  obtain ⟨hfails, before, after, files, rfl, rfl, hread⟩ := missing
  induction files with
  | nil => simp only [List.map_nil, List.nil_append, load, hfails]
  | cons file files ih =>
    obtain ⟨hfirst, hlater⟩ := List.forall_mem_cons.mp hread
    simp only [List.map_cons, List.cons_append, load, hfirst, ih hlater]
    rfl

theorem contents_of_load {loaded : BatchFiles} {records : List LogRecord}
    (result : load disk paths = (.ok loaded, records)) :
    ∃ files, Contents disk paths files ∧ loaded = ⟨queue files⟩ := by
  rcases contents_or_missing disk paths with ⟨files, contents⟩ | ⟨path, error, missing⟩
  · have hloaded := congrArg Prod.fst (result.symm.trans (load_of_contents contents))
    exact ⟨files, contents, Except.ok.inj hloaded⟩
  · have hloaded := congrArg Prod.fst (result.symm.trans (load_of_missing missing))
    cases hloaded

theorem load_congr {other : Disk} (same : ∀ path ∈ paths, other.read path = disk.read path) :
    load other paths = load disk paths := by
  induction paths with
  | nil => rfl
  | cons path paths ih =>
    obtain ⟨hfirst, hlater⟩ := List.forall_mem_cons.mp same
    rw [load, load, hfirst, ih hlater]

/-- A log record that tells of a batch, be it only that the batch is about to be played. -/
def TellsOfBatch (record : LogRecord) : Prop :=
  record.topic ∈ [.coreBatch, .avBatch, .delivery] ∨ ∃ kind path, record = announce kind path

theorem head_announce (kind path : String) :
    (announce kind path).text.toList.head? = some 'R' := by
  simp [announce, toString]

theorem not_tellsOfBatch {level : Level} {topic : Topic} {text : String}
    (elsewhere : topic ∉ [Topic.coreBatch, .avBatch, .delivery])
    (other : text.toList.head? ≠ some 'R') : ¬ TellsOfBatch ⟨level, topic, text⟩ := by
  rintro (delivers | ⟨kind, path, announces⟩)
  · exact elsewhere delivers
  · have hhead := head_announce kind path
    rw [← announces] at hhead
    exact other hhead

theorem load_silent (disk : Disk) (paths : List String) :
    ∀ record ∈ (load disk paths).2, ¬ TellsOfBatch record := by
  induction paths with
  | nil => exact nofun
  | cons path paths ih =>
    rw [load]
    cases disk.read path with
    | error e => exact nofun
    | ok bytes =>
      refine List.forall_mem_cons.mpr ⟨not_tellsOfBatch (by decide) ?_, ih⟩
      simp [toString]

theorem release_silent (files : BatchFiles) :
    ∀ record ∈ files.release.1, ¬ TellsOfBatch record := by
  unfold BatchFiles.release
  split
  · exact nofun
  · refine List.forall_mem_singleton.mpr (not_tellsOfBatch (by decide) ?_)
    simp [toString]

end Playback

end ToxEvents
