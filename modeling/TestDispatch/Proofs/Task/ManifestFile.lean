import TestDispatch.Task.Manifest
import TestDispatch.Proofs.Json.Decode
import TestDispatch.Proofs.Json.SortedMap
import TestDispatch.Proofs.Fs.Write
import TestDispatch.Proofs.Task.Pipeline
/-! The manifest file: a manifest written as compact JSON reads back as itself, and turning the
archiver's hash mapping into a manifest ends as `HashesOutcome` says. -/
namespace TestDispatch.Task

open TestDispatch.Json Text.Utf8

def TaskDescription.membersText (t : TaskDescription) : List Char :=
  (quote "isolate_hash").toList ++ ':' :: ((quote t.isolateHash).toList ++ ',' ::
    ((quote "description").toList ++ ':' :: ((quote t.description).toList ++ ',' ::
      ((quote "timeout").toList ++ ':' :: (toString t.timeout).toList))))

def TaskDescription.text (t : TaskDescription) : List Char := '{' :: (t.membersText ++ ['}'])

def TaskManifest.membersText (m : TaskManifest) : List Char :=
  (quote "tasks").toList ++ ':' :: ('[' :: ([','].intercalate (m.tasks.map TaskDescription.text) ++ [']']))

section Text

theorem compactItems_toList (vs : List Value) :
    (compactItems vs).toList = [','].intercalate (vs.map fun v => v.compact.toList) := by
  induction vs with
  | nil => simp [compactItems]
  | cons v vs ih =>
    cases vs with
    | nil => simp [compactItems]
    | cons w ws =>
      rw [compactItems.eq_3 _ _ (List.cons_ne_nil _ _), String.toList_append, String.toList_append,
        ih]
      simp only [List.map_cons]
      rw [List.intercalate_cons_cons]
      simp

theorem TaskDescription.compact_toList (t : TaskDescription) :
    (Value.obj [("isolate_hash", .str t.isolateHash), ("description", .str t.description),
      ("timeout", .num t.timeout)]).compact.toList = t.text := by
  simp [Value.compact, compactFields, TaskDescription.text, TaskDescription.membersText]

theorem TaskManifest.text_toList (m : TaskManifest) :
    m.text.toList = '{' :: (m.membersText ++ ['}']) := by
  simp only [TaskManifest.text, TaskManifest.toValue, Value.compact, compactFields]
  simp only [String.toList_append, compactItems_toList, List.map_map, Function.comp_def,
    TaskDescription.compact_toList]
  simp [TaskManifest.membersText]

end Text

section Read

variable {src : ByteArray}

/-- The members of a task's object are read back as the task, its time limit fitting in 64
bits. -/
theorem TaskDescription.ofMap_reads (t : TaskDescription) (ht : t.timeout ≤ u64Max)
    (rest : List Char) : Reads src (TaskDescription.ofMap src) t.membersText t ('}' :: rest) := by
  obtain ⟨h, d, n⟩ := t
  intro i hi
  let r₂ := ',' :: ((quote "timeout").toList ++ ':' :: (toString n).toList ++ '}' :: rest)
  let r₁ := ',' :: ((quote "description").toList ++ ':' :: (quote d).toList ++ r₂)
  have hi' : bytesFrom src i = encode ([] ++ (quote "isolate_hash").toList ++ ':' :: (quote h).toList ++ r₁) := by
    rw [hi]
    simp [r₁, r₂, TaskDescription.membersText]
  -- the loop takes the three members and the closing brace: four turns
  obtain ⟨fuel, hfuel⟩ : ∃ fuel, src.size + 1 = fuel + 1 + 1 + 1 + 1 := by
    have hlen := congrArg List.length hi'
    have := length_le_length_encode ([] ++ (quote "isolate_hash").toList ++ ':' :: (quote h).toList ++ r₁)
    simp only [length_bytesFrom, r₁, List.length_append, List.length_cons] at hlen this
    exact ⟨src.size - 3, by omega⟩
  have e₁ : Reads src (TaskDescription.entry src {} "isolate_hash") (':' :: (quote h).toList)
      { isolateHash := some h } r₁ := fun j hj => by
    obtain ⟨k, hk, hk'⟩ : ∃ k, knownField src "isolate_hash" false (stringValue src) j = .ok (h, k) ∧
        bytesFrom src k = encode r₁ := reads_knownField (reads_quote h r₁) j hj
    exact ⟨k, by simp [TaskDescription.entry, hk], hk'⟩
  obtain ⟨k₁, hk₁, s₁⟩ := visitMap_quote (fuel + 1 + 1 + 1) (show KeyLead true [] from blank_nil) e₁ hi'
  have e₂ : Reads src (TaskDescription.entry src { isolateHash := some h } "description")
      (':' :: (quote d).toList) { isolateHash := some h, description := some d } r₂ := fun j hj => by
    obtain ⟨k, hk, hk'⟩ : ∃ k, knownField src "description" false (stringValue src) j = .ok (d, k) ∧
        bytesFrom src k = encode r₂ := reads_knownField (reads_quote d r₂) j hj
    exact ⟨k, by simp [TaskDescription.entry, hk], hk'⟩
  have hk₁' : bytesFrom src k₁ = encode ([','] ++ (quote "description").toList ++ ':' :: (quote d).toList ++ r₂) := by
    rw [hk₁]
    simp [r₁]
  obtain ⟨k₂, hk₂, s₂⟩ := visitMap_quote (fuel + 1 + 1) (show KeyLead false [','] from ⟨[], [], rfl, blank_nil, blank_nil⟩) e₂ hk₁'
  have e₃ : Reads src (TaskDescription.entry src { isolateHash := some h, description := some d } "timeout")
      (':' :: (toString n).toList) { isolateHash := some h, description := some d, timeout := some n }
      ('}' :: rest) := fun j hj => by
    obtain ⟨k, hk, hk'⟩ : ∃ k, knownField src "timeout" false (u64Value src) j = .ok (n, k) ∧
        bytesFrom src k = encode ('}' :: rest) := reads_knownField (reads_toString ht rfl rest) j hj
    exact ⟨k, by simp [TaskDescription.entry, hk], hk'⟩
  have hk₂' : bytesFrom src k₂ = encode ([','] ++ (quote "timeout").toList ++ ':' :: (toString n).toList ++ '}' :: rest) := by
    rw [hk₂]
    simp [r₂]
  obtain ⟨k₃, hk₃, s₃⟩ := visitMap_quote (fuel + 1) (show KeyLead false [','] from ⟨[], [], rfl, blank_nil, blank_nil⟩) e₃ hk₂'
  refine ⟨k₃, ?_, hk₃⟩
  simp only [TaskDescription.ofMap, hfuel, s₁, s₂, s₃, visitMap_end hk₃]
  rfl

theorem TaskDescription.decode_reads (t : TaskDescription) (ht : t.timeout ≤ u64Max)
    (rest : List Char) : Reads src (TaskDescription.decode src) t.text t rest :=
  reads_structValue_object (TaskDescription.ofMap_reads t ht rest)

theorem TaskDescription.readsElement (t : TaskDescription) (ht : t.timeout ≤ u64Max) :
    ReadsElement src (TaskDescription.decode src) t.text t :=
  ⟨⟨'{', _, rfl, by decide, by decide, by decide⟩, fun c r _ => TaskDescription.decode_reads t ht (c :: r)⟩

theorem TaskManifest.ofMap_reads (m : TaskManifest) (hm : ∀ t ∈ m.tasks, t.timeout ≤ u64Max)
    (rest : List Char) : Reads src (TaskManifest.ofMap src) m.membersText m ('}' :: rest) := by
  obtain ⟨tasks⟩ := m
  intro i hi
  let items := '[' :: ([','].intercalate (tasks.map TaskDescription.text) ++ [']'])
  have hi' : bytesFrom src i = encode ([] ++ (quote "tasks").toList ++ ':' :: items ++ '}' :: rest) := by
    rw [hi]
    simp [items, TaskManifest.membersText]
  obtain ⟨fuel, hfuel⟩ : ∃ fuel, src.size + 1 = fuel + 1 + 1 := by
    have hlen := congrArg List.length hi'
    have := length_le_length_encode ([] ++ (quote "tasks").toList ++ ':' :: items ++ '}' :: rest)
    simp only [length_bytesFrom, List.length_append, List.length_cons] at hlen this
    exact ⟨src.size - 1, by omega⟩
  have e : Reads src (TaskManifest.entry src none "tasks") (':' :: items) (some tasks) ('}' :: rest) :=
    fun j hj => by
      obtain ⟨k, hk, hk'⟩ : ∃ k, knownField src "tasks" false
          (seqValue src (TaskDescription.decode src)) j = .ok (tasks, k) ∧
          bytesFrom src k = encode ('}' :: rest) :=
        reads_knownField (reads_seqValue fun t ht => TaskDescription.readsElement t (hm t ht)) j hj
      exact ⟨k, by simp [TaskManifest.entry, hk], hk'⟩
  obtain ⟨k, hk, s⟩ := visitMap_quote (fuel + 1) (show KeyLead true [] from blank_nil) e hi'
  refine ⟨k, ?_, hk⟩
  simp only [TaskManifest.ofMap, hfuel, s, visitMap_end hk]
  rfl

theorem TaskManifest.decode_reads (m : TaskManifest) (hm : ∀ t ∈ m.tasks, t.timeout ≤ u64Max) :
    Reads src (TaskManifest.decode src) m.text.toList m [] := by
  rw [TaskManifest.text_toList]
  exact reads_structValue_object (TaskManifest.ofMap_reads m hm [])

end Read

theorem TaskManifest.ofBytes_text (m : TaskManifest) (hm : ∀ t ∈ m.tasks, t.timeout ≤ u64Max) :
    TaskManifest.ofBytes (bytes m.text) = .ok m := by
  unfold TaskManifest.ofBytes
  refine document_of_reads (TaskManifest.decode_reads m hm) ?_
  simp [bytesFrom, bytes_eq_encode]

/-- A manifest written to a file is read back from it. -/
theorem TaskManifest.read_after_write {m : TaskManifest} {t t' : Fs.Tree} {cwd : List String}
    {path : Path} (hm : ∀ task ∈ m.tasks, task.timeout ≤ u64Max) (hw : m.write t cwd path = .ok t') :
    TaskManifest.read t' cwd path = .ok m := by
  have hfile := Fs.Tree.readBytes_writeFile (Except.mapError_eq_ok.mp hw)
  simp only [TaskManifest.read, hfile, Except.mapError, Except.ok_bind, TaskManifest.ofBytes_text m hm]

section Hashes

/-- The bytes of a hash mapping: the UTF-8 text of a JSON object whose members, in order, are
`kvs`, each value a string. -/
def HashMapping (bytes : List UInt8) (kvs : List (String × String)) : Prop :=
  ∃ text, text? bytes = some text ∧ ObjectText text.toList kvs

/-- The hash mapping is read exactly from the bytes of one, as the map of its members. -/
theorem readHashes_eq_ok_iff {path : Path} {contents : Except Fs.IoError (List UInt8)}
    {m : List (String × String)} :
    readHashes path contents = .ok m ↔
      ∃ bytes kvs, contents = .ok bytes ∧ HashMapping bytes kvs ∧ m = insertAll [] kvs := by
  constructor
  · intro h
    unfold readHashes at h
    split at h
    · cases h
    · rename_i bytes
      split at h
      · cases h
      · rename_i text htext
        split at h
        · rename_i m' hm'
          cases h
          obtain ⟨kvs, hobj, rfl⟩ := readStringMap_eq_ok_iff.mp hm'
          exact ⟨bytes, kvs, rfl, ⟨text, htext, hobj⟩, rfl⟩
        · cases h
  · rintro ⟨bytes, kvs, rfl, ⟨text, htext, hobj⟩, rfl⟩
    simp only [readHashes, htext, readStringMap_complete hobj]

theorem ofHashes_pairs (hashes : List (String × String)) (timeout : Nat) :
    (TaskManifest.ofHashes hashes timeout).tasks.map (fun task => (task.description, task.isolateHash)) =
      hashes := by
  simp [TaskManifest.ofHashes, Function.comp_def]

theorem ofHashes_timeout {hashes : List (String × String)} {timeout : Nat} :
    ∀ task ∈ (TaskManifest.ofHashes hashes timeout).tasks, task.timeout = timeout := by
  intro task ht
  simp only [TaskManifest.ofHashes, List.mem_map] at ht
  obtain ⟨_, -, rfl⟩ := ht
  rfl

/-- What turning the hash mapping at `infile` into a manifest at `outfile` ends with. Contents
that are not a hash mapping are refused, and only they. From a hash mapping comes one task per
key, in increasing order of keys, with the key as description, the key's last value as hash and
the time limit given; the manifest is then written to `outfile`, where it reads back, unless the
write fails. -/
structure HashesOutcome (t : Fs.Tree) (cwd : List String) (infile outfile : Path) (timeout : Nat)
    (r : Except PipelineError (Fs.Tree × TaskManifest)) : Prop where
  refused : (∃ msg, r = .error (.invalidHashes infile msg)) ↔
    ¬ ∃ bs kvs, t.readBytes cwd infile.text = .ok bs ∧ HashMapping bs kvs
  accepted : ∀ bs kvs, t.readBytes cwd infile.text = .ok bs → HashMapping bs kvs →
    ∃ m, MapOf kvs (m.tasks.map fun task => (task.description, task.isolateHash)) ∧
      (∀ task ∈ m.tasks, task.timeout = timeout) ∧
      ((∃ e, t.writeFile cwd outfile.text (bytes m.text) = .error e ∧ r = .error (.io e)) ∨
        ∃ t', r = .ok (t', m) ∧ TaskManifest.read t' cwd outfile = .ok m)

/-- Turning a hash mapping into a manifest file, for a time limit that fits in 64 bits. -/
theorem hashesToManifest_outcome (t : Fs.Tree) (cwd : List String) (infile outfile : Path)
    (timeout : Nat) (htime : timeout ≤ u64Max) :
    HashesOutcome t cwd infile outfile timeout (hashesToManifest t cwd infile outfile timeout) := by
  rcases hread : readHashes infile (t.readBytes cwd infile.text) with e | hashes
  · -- the mapping is refused, and it is no hash mapping
    obtain ⟨msg, rfl⟩ := readHashes_error hread
    have hr : hashesToManifest t cwd infile outfile timeout = .error (.invalidHashes infile msg) := by
      simp [hashesToManifest, hread]
    have hnot : ¬ ∃ bs kvs, t.readBytes cwd infile.text = .ok bs ∧ HashMapping bs kvs := by
      rintro ⟨bs, kvs, hb, hm⟩
      have hok : readHashes infile (t.readBytes cwd infile.text) = .ok (insertAll [] kvs) :=
        readHashes_eq_ok_iff.mpr ⟨bs, kvs, hb, hm, rfl⟩
      rw [hread] at hok
      cases hok
    rw [hr]
    exact ⟨⟨fun _ => hnot, fun _ => ⟨msg, rfl⟩⟩, fun bs kvs hb hm => absurd ⟨bs, kvs, hb, hm⟩ hnot⟩
  · -- a hash mapping: its map makes the manifest
    obtain ⟨bs, kvs, hb, hm, rfl⟩ := readHashes_eq_ok_iff.mp hread
    set m := TaskManifest.ofHashes (insertAll [] kvs) timeout with hmdef
    -- the map of the members read is the map of the members of any text the bytes are
    have hmap : ∀ bs' kvs', t.readBytes cwd infile.text = .ok bs' → HashMapping bs' kvs' →
        MapOf kvs' (m.tasks.map fun task => (task.description, task.isolateHash)) := by
      intro bs' kvs' hb' hm'
      have hok : readHashes infile (t.readBytes cwd infile.text) = .ok (insertAll [] kvs') :=
        readHashes_eq_ok_iff.mpr ⟨bs', kvs', hb', hm', rfl⟩
      rw [hread, Except.ok.injEq] at hok
      rw [ofHashes_pairs, hok]
      exact mapOf_insertAll_nil kvs'
    have hsmall : ∀ task ∈ m.tasks, task.timeout ≤ u64Max := fun task ht =>
      (ofHashes_timeout task ht).symm ▸ htime
    have hmapping : ∃ bs kvs, t.readBytes cwd infile.text = .ok bs ∧ HashMapping bs kvs :=
      ⟨bs, kvs, hb, hm⟩
    rcases hw : t.writeFile cwd outfile.text (bytes m.text) with e | t'
    · -- the write fails
      have hr : hashesToManifest t cwd infile outfile timeout = .error (.io e) := by
        simp [hashesToManifest, hread, TaskManifest.write, hw, ← hmdef, Except.mapError]
      rw [hr]
      exact ⟨by simpa using hmapping, fun bs' kvs' hb' hm' =>
        ⟨m, hmap bs' kvs' hb' hm', ofHashes_timeout, .inl ⟨e, hw, rfl⟩⟩⟩
    · -- the manifest is written, and reads back
      have hwrite : m.write t cwd outfile = .ok t' := by
        simp [TaskManifest.write, hw, Except.mapError]
      have hr : hashesToManifest t cwd infile outfile timeout = .ok (t', m) := by
        simp [hashesToManifest, hread, TaskManifest.write, hw, ← hmdef, Except.mapError]
      rw [hr]
      exact ⟨by simpa using hmapping, fun bs' kvs' hb' hm' =>
        ⟨m, hmap bs' kvs' hb' hm', ofHashes_timeout,
          .inr ⟨t', rfl, TaskManifest.read_after_write hsmall hwrite⟩⟩⟩

def hashedWorkDir : Fs.Tree :=
  ⟨[(["w"], .dir), (["w", "hashes.json"], .file (bytes "\x7b\"Test\":\"9f2c\"\x7d") 420)]⟩

theorem hashesToManifest_outcome_sample :
    300 ≤ u64Max ∧ HashesOutcome hashedWorkDir [] ⟨"/w/hashes.json"⟩ ⟨"/w/manifest.json"⟩ 300
      (hashesToManifest hashedWorkDir [] ⟨"/w/hashes.json"⟩ ⟨"/w/manifest.json"⟩ 300) :=
  ⟨by decide, hashesToManifest_outcome hashedWorkDir [] ⟨"/w/hashes.json"⟩ ⟨"/w/manifest.json"⟩ 300
    (by decide)⟩

end Hashes

end TestDispatch.Task
