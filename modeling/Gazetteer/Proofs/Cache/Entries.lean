import Mathlib.Data.List.Pairwise
import Gazetteer.CommandLine.Run
import Gazetteer.Proofs.Cache.Listing
import Gazetteer.Proofs.Instant.Clock
import Gazetteer.Proofs.Text.Bytes

/-!
# What is listed of a cache file

A handle that holds a table lists each of its texts that is an entry under a key with a bar, once,
and nothing else.  Older entries come first, and those of one time in the order of the bytes of
their flat keys.  Listing changes nothing in the file.  So the command that reports on the cache
shows the first and the last of all times.

    IsListing t listed: the list has the entries of the table, in order
    ShowsTimes listed lines: the lines have the earliest and the latest time of the list

    the times of t, sorted, are a listing of it                                   (isListing_times)
    a report on such a list shows its times                                    (cacheReport_shows)
    all of it                                                                     (entries_listing)
-/

namespace Gazetteer

namespace Disk

/-- A list of the entries of a table, by their keys and times. -/
structure IsListing (t : Table String) (listed : List (CacheKey × Instant)) : Prop where
  /-- There is an entry of the time under the key. -/
  sound : ∀ a ∈ listed, a.1.Plain ∧ ∃ text e, t.find? a.1.flat = some text ∧
    CacheEntry.ofText? text = some e ∧ e.storedAt = a.2
  /-- An entry under a flat key with a bar is listed under the key. -/
  complete : ∀ raw text e, t.find? raw = some text → '|' ∈ raw.toList →
    CacheEntry.ofText? text = some e → ∃ key : CacheKey, key.flat = raw ∧ (key, e.storedAt) ∈ listed
  /-- No key comes twice. -/
  distinct : (listed.map (·.1)).Nodup
  /-- Later entries do not come first, nor do of one time those with a later key. -/
  ordered : listed.Pairwise fun a b =>
    a.2.le b.2 ∧ (b.2.le a.2 → Text.bytes a.1.flat < Text.bytes b.1.flat)

theorem timeOf?_eq_some_iff {e : String × String} {a : CacheKey × Instant} :
    timeOf? e = some a ↔ CacheKey.ofFlat? e.1 = some a.1 ∧
      ∃ entry, CacheEntry.ofText? e.2 = some entry ∧ entry.storedAt = a.2 := by
  obtain ⟨key, time⟩ := a
  simp only [timeOf?, Option.bind_eq_bind, Option.bind_eq_some_iff, Option.pure_def,
    Option.some.injEq, Prod.mk.injEq]
  constructor
  · rintro ⟨key', hkey, entry, hentry, rfl, rfl⟩
    exact ⟨hkey, entry, hentry, rfl⟩
  · rintro ⟨hkey, entry, hentry, rfl⟩
    exact ⟨key, hkey, entry, hentry, rfl, rfl⟩

theorem isListing_times (t : Table String) :
    IsListing t ((times t).mergeSort fun a b => a.2.le b.2) where
  sound := by
    intro a ha
    rw [List.mem_mergeSort, times_eq] at ha
    obtain ⟨⟨raw, text⟩, he, ha⟩ := List.mem_filterMap.mp ha
    obtain ⟨hkey, e, hentry, htime⟩ := timeOf?_eq_some_iff.mp ha
    obtain ⟨hflat, hplain⟩ := CacheKey.flat_of_ofFlat? hkey
    rw [hflat]
    exact ⟨hplain, text, e, t.find?_eq_some_iff.mpr he, hentry, htime⟩
  complete := by
    intro raw text e hfind hbar hentry
    obtain ⟨parts, hsplit⟩ :=
      Option.ne_none_iff_exists'.mp fun hnone => Text.splitOnce_eq_none_iff.mp hnone hbar
    obtain ⟨key, hkey⟩ : ∃ key, CacheKey.ofFlat? raw = some key :=
      ⟨_, Option.map_eq_some_iff.mpr ⟨parts, hsplit, rfl⟩⟩
    refine ⟨key, (CacheKey.flat_of_ofFlat? hkey).1, ?_⟩
    rw [List.mem_mergeSort, times_eq]
    exact List.mem_filterMap.mpr ⟨(raw, text), t.find?_eq_some_iff.mp hfind,
      timeOf?_eq_some_iff.mpr ⟨hkey, e, hentry, rfl⟩⟩
  distinct := by
    have hkeys : ((times t).map (·.1)).Nodup := by
      apply List.Pairwise.map _ _ (times_ascending t)
      intro a b hlt heq
      rw [heq] at hlt
      exact String.lt_irrefl _ hlt
    exact ((List.mergeSort_perm (times t) _).map _).nodup_iff.mpr hkeys
  ordered := (ordered_times t).imp fun h => ⟨h.1, fun hba => Text.bytes_lt_iff.mpr (h.2 hba)⟩

end Disk

/-! ## Reports -/

namespace CommandLine

/-- What a report on a cache file says of the times of its entries. -/
inductive ShowsTimes (zone : Zone) : List (CacheKey × Instant) → String → Prop where
  | none : ShowsTimes zone [] ""
  /-- No entry is older than the oldest or newer than the newest. -/
  | some {listed : List (CacheKey × Instant)} {oldest newest : CacheKey × Instant}
      (holdest : oldest ∈ listed) (hnewest : newest ∈ listed)
      (hall : ∀ a ∈ listed, oldest.2.le a.2 ∧ a.2.le newest.2) {first last : String}
      (hfirst : zone.Shows oldest.2 first.toList) (hlast : zone.Shows newest.2 last.toList) :
      ShowsTimes zone listed
        ("Oldest:     " ++ first ++ "\n" ++ "Newest:     " ++ last ++ "\n")

/-- Of a list in the order of times, the first and the last time are shown. -/
theorem cacheReport_shows (zone : Zone) (path : String) {listed : List (CacheKey × Instant)}
    (h : listed.Pairwise fun a b => a.2.le b.2) :
    ∃ lines, ShowsTimes zone listed lines ∧
      cacheReport zone path listed = "Cache file: " ++ path ++ "\n"
        ++ "Entries:    " ++ toString listed.length ++ "\n" ++ lines := by
  have hself (a : CacheKey × Instant) : a.2.le a.2 := by simpa using Instant.le_total a.2 a.2
  cases listed with
  | nil => exact ⟨"", .none, rfl⟩
  | cons oldest rest =>
    have hne : oldest :: rest ≠ [] := List.cons_ne_nil oldest rest
    have hlast := List.getLast?_eq_some_getLast hne
    refine ⟨_, .some List.mem_cons_self (List.getLast_mem hne) (fun a ha => ⟨?_, ?_⟩)
      (Instant.clockText_shows zone _) (Instant.clockText_shows zone _), ?_⟩
    · exact h.rel_head_of_rel_head_head ha (hself _)
    · exact h.rel_getLast_of_rel_getLast_getLast ha (hself _)
    · -- Equations of the report take long to make, so it is opened without one.
      delta cacheReport
      rw [hlast]
      rfl

theorem run_cacheInfo {ν : Type} (network : Http.Network ν) (now : Instant) {args : List String}
    (hargs : parse false args = .command .cacheInfo) {w : World ν} {t : Table String}
    (ht : (Disk.opened w.cache).held = .ok t) :
    (run network now args).run w =
      (⟨0, cacheReport w.zone w.cache.path ((Disk.times t).mergeSort fun a b => a.2.le b.2), ""⟩,
        w) := by
  have hentries := Disk.run_entries ht
  rw [run, hargs, StateT.run]
  show (stepOutcome _ (Disk.entries.run.run (Disk.opened w.cache)).1,
    { w with cache := (Disk.entries.run.run (Disk.opened w.cache)).2.slot }) = _
  rw [hentries]
  rfl

end CommandLine

namespace Disk

/-- The entries of a cache file are listed once each, oldest first.  A handle that holds a table
lists it, and holds it afterwards on the same file.  The command that reports on a cache file with
the table shows how many are listed, and the earliest and the latest of their times, in the world's
time zone. -/
theorem entries_listing {d : Disk} {t : Table String} (h : d.held = .ok t) :
    ∃ listed d', entries.run.run d = (.ok listed, d') ∧ IsListing t listed ∧
      (d'.slot = d.slot ∧ d'.held = .ok t) ∧
      ∀ {ν : Type} (network : Http.Network ν) (now : Instant) (args : List String) (w : World ν),
        CommandLine.parse false args = .command .cacheInfo → (opened w.cache).held = .ok t →
        ∃ lines, CommandLine.ShowsTimes w.zone listed lines ∧
          (CommandLine.run network now args).run w = (⟨0, "Cache file: " ++ w.cache.path ++ "\n"
            ++ "Entries:    " ++ toString listed.length ++ "\n" ++ lines, ""⟩, w) := by
  refine ⟨_, _, run_entries h, isListing_times t, ⟨rfl, rfl⟩, ?_⟩
  intro ν network now args w hargs ht
  have hsorted := (isListing_times t).ordered.imp fun h => h.1
  obtain ⟨lines, hlines, hreport⟩ := CommandLine.cacheReport_shows w.zone w.cache.path hsorted
  exact ⟨lines, hlines, by rw [CommandLine.run_cacheInfo network now hargs ht, hreport]⟩

/-- A file with an entry under no key and a key over no entry: of the three listed two have the same
time, and the one with the first key comes last.  An hour ahead of UTC the year is a new one. -/
theorem entries_listing_three :
    let early : Instant := ⟨2016, 12, 31, 23, 59, 59, 0, by decide⟩
    let late : Instant := ⟨2017, 1, 1, 0, 0, 0, 0, by decide⟩
    let entry (time : Instant) := (CacheEntry.mk time []).text
    let t := Table.ofList [("plain", entry late), ("c|z", entry early), ("b|q|r", "[]"),
      ("a|y", entry late), ("b|x", entry early)]
    let zone : Zone := .ofOffset fun _ => 3600
    let w : World Unit :=
      ⟨⟨"/c/config.toml", "/c", .absent⟩, ⟨"/k/cache.json", "/k", .file (textOf t)⟩, (), zone⟩
    let listed := [(⟨"x", "b"⟩, early), (⟨"z", "c"⟩, early), (⟨"y", "a"⟩, late)]
    let lines := "Oldest:     2017-01-01 00:59:59\nNewest:     2017-01-01 01:00:00\n"
    (opened w.cache).held = .ok t ∧
      CommandLine.parse false ["cache", "info"] = .command .cacheInfo ∧
      (entries.run.run (opened w.cache)).1 = .ok listed ∧ IsListing t listed ∧
      CommandLine.ShowsTimes zone listed lines ∧
        ((CommandLine.run (Http.Network.unreachable Unit) late ["cache", "info"]).run w).1.output =
          "Cache file: /k/cache.json\nEntries:    3\n" ++ lines := by
  intro early late entry t zone w listed lines
  have hheld : (opened w.cache).held = .ok t := (held_opened_iff _ _).mpr (tableOf_textOf rfl rfl)
  have hargs : CommandLine.parse false ["cache", "info"] = .command .cacheInfo := rfl
  have htimes : times t = [(⟨"y", "a"⟩, late), (⟨"x", "b"⟩, early), (⟨"z", "c"⟩, early)] := by
    decide +kernel
  have hlisted : ((times t).mergeSort fun a b => a.2.le b.2) = listed := by
    have hlate : late.le early = false := by decide
    have htie : early.le early = true := by decide
    rw [htimes]
    simp [List.mergeSort, List.MergeSort.Internal.splitInTwo, hlate, htie, listed]
  obtain ⟨found, d', hrun, hlisting, -, hreport⟩ := entries_listing hheld
  obtain ⟨shown, hshown, houtcome⟩ := hreport (Http.Network.unreachable Unit) late _ w hargs hheld
  rw [run_entries hheld, hlisted] at hrun
  cases hrun
  have hhead : "Cache file: " ++ "/k/cache.json" ++ "\n" ++ "Entries:    " ++ toString 3 ++ "\n" =
      "Cache file: /k/cache.json\nEntries:    3\n" := by decide +kernel
  have hlines : CommandLine.cacheReport zone "/k/cache.json" listed =
      "Cache file: /k/cache.json\nEntries:    3\n" ++ lines := by decide +kernel
  have hinfo := CommandLine.run_cacheInfo (Http.Network.unreachable Unit) late hargs hheld
  rw [hlisted] at hinfo
  have hsame : "Cache file: /k/cache.json\nEntries:    3\n" ++ lines =
      "Cache file: /k/cache.json\nEntries:    3\n" ++ shown := by
    rw [hinfo] at houtcome
    exact hlines.symm.trans ((congrArg (·.1.output) houtcome).trans (congrArg (· ++ shown) hhead))
  rw [String.append_right_inj] at hsame
  refine ⟨hheld, hargs, ?_, hlisting, hsame ▸ hshown, ?_⟩
  · rw [run_entries hheld, hlisted]
  · rw [hinfo]
    exact hlines

end Disk

end Gazetteer
