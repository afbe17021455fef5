import PadPlay.Daemon.Output

/-!
# Names in a `wlr-randr` listing (`output::wlr_randr_output_names`)

`wlr-randr` prints an output's name at the start of a line and its properties on indented lines
below. `wlr_randr_output_names` and `labwc_output_exists` take the first word of every line,
indented or not, so property lines count as names too (`wlrRandrOutputNames_print`). What that does
to the search for a hotplugged output, and to the search for one by name, is
`wlrRandrListing_iff`.
-/

namespace PadPlay.Daemon

open PadPlay.Lib

/-! ## The daemon's side -/

/-- `wlr_randr_output_names`, on what `run("wlr-randr")` returned. -/
def wlrRandrOutputNames (out : Option Text) : Option (List Text) :=
  out.map fun out =>
    ((Text.lines out).filterMap Text.firstWord).filter fun token => !token.isEmpty

/-- `labwc_output_exists`. -/
def labwcOutputExists (out : Option Text) (name : Text) : Bool :=
  (out.map fun out => (Text.lines out).any fun line => Text.firstWord line = some name).getD false

/-- One round of `discover_new_output`: what `wlr-randr` printed, if it ran, and whether the
deadline has passed then. -/
structure Poll where
  out : Option Text
  late : Bool

def neverAppeared : String :=
  "evdi output never appeared in wlr-randr's output list within 5s; is niri running and " ++
    "watching for DRM hotplug?"

/-- `discover_new_output`; `none` while it is still polling. -/
def discoverNewOutput (before : List Text) : List Poll → Option (Except String Text)
  | [] => none
  | poll :: polls =>
    match (wlrRandrOutputNames poll.out).bind fun after => after.find? fun n => n ∉ before with
    | some newName => some (.ok newName)
    | none => if poll.late then some (.error neverAppeared) else discoverNewOutput before polls

/-- The niri branch of `VirtualOutput::create`: the snapshot is taken before the device is
connected, and is empty if that `wlr-randr` failed. -/
def VirtualOutput.discovered (before : Option Text) (polls : List Poll) :
    Option (Except String Text) :=
  discoverNewOutput ((wlrRandrOutputNames before).getD []) polls

/-! ## What `wlr-randr` prints -/

structure ListedOutput where
  name : Text
  /-- make, model and serial, behind the name -/
  description : Text
  properties : List Text
  name_ne : name ≠ []
  name_word : ∀ c ∈ name, Text.isWhitespace c = false
  description_apart : ∀ c ∈ description.head?, Text.isWhitespace c = true
  description_line : '\n' ∉ description
  indented : ∀ line ∈ properties, ∃ c ∈ line.head?, Text.isWhitespace c = true
  properties_line : ∀ line ∈ properties, '\n' ∉ line

def ListedOutput.lines (output : ListedOutput) : List Text :=
  (output.name ++ output.description) :: output.properties

abbrev Listing := List ListedOutput

def Listing.names (listing : Listing) : List Text := listing.map (·.name)

def Listing.print (listing : Listing) : Text :=
  (listing.flatMap (·.lines)).flatMap fun line => line ++ ['\n']

/-- The first words of an output's lines, its name first. -/
def ListedOutput.words (output : ListedOutput) : List Text :=
  output.name :: output.properties.filterMap Text.firstWord

def Listing.words (listing : Listing) : List Text := listing.flatMap (·.words)

theorem ListedOutput.isWord (output : ListedOutput) : Text.IsWord output.name :=
  ⟨output.name_ne, output.name_word⟩

theorem ListedOutput.line_feed (output : ListedOutput) : ∀ line ∈ output.lines, '\n' ∉ line := by
  intro line hline
  obtain rfl | hline := List.mem_cons.1 hline
  · rw [List.mem_append, not_or]
    exact ⟨output.isWord.notMem (by decide), output.description_line⟩
  · exact output.properties_line line hline

theorem ListedOutput.filterMap_lines (output : ListedOutput) :
    output.lines.filterMap Text.firstWord = output.words :=
  List.filterMap_cons_some
    (Text.firstWord_append output.isWord output.description_apart)

/-- The names the daemon reads are the first words of all lines. -/
theorem firstWords_print (listing : Listing) :
    (Text.lines listing.print).filterMap Text.firstWord = listing.words := by
  have hfeed : ∀ line ∈ listing.flatMap (·.lines), '\n' ∉ line := by
    intro line hline
    obtain ⟨output, -, hline⟩ := List.mem_flatMap.1 hline
    exact output.line_feed line hline
  rw [Listing.print, Text.lines_flatMap hfeed, List.filterMap_map]
  have hstrip : (Text.firstWord ∘ fun line => Text.stripLineEnding (line ++ ['\n'])) =
      Text.firstWord := funext Text.firstWord_stripLineEnding
  rw [hstrip, Listing.words, List.filterMap_flatMap]
  exact List.flatMap_congr fun output _ => output.filterMap_lines

theorem wlrRandrOutputNames_print (listing : Listing) :
    wlrRandrOutputNames (some listing.print) = some listing.words := by
  rw [wlrRandrOutputNames, Option.map_some, firstWords_print, List.filter_eq_self.2]
  intro word hword
  rw [← firstWords_print, List.mem_filterMap] at hword
  obtain ⟨line, -, hline⟩ := hword
  simpa using Text.firstWord_ne_nil hline

theorem labwcOutputExists_print (listing : Listing) (name : Text) :
    labwcOutputExists (some listing.print) name = true ↔ name ∈ listing.words := by
  rw [← firstWords_print, List.mem_filterMap]
  simp [labwcOutputExists]

/-- A name is in the listing's words because an output has it or because a property line starts
with it. -/
theorem Listing.mem_words {listing : Listing} {word : Text} :
    word ∈ listing.words ↔ word ∈ listing.names ∨
      ∃ output ∈ listing, ∃ line ∈ output.properties, Text.firstWord line = some word := by
  simp only [Listing.words, Listing.names, ListedOutput.words, List.mem_flatMap, List.mem_cons,
    List.mem_filterMap, List.mem_map]
  constructor
  · rintro ⟨output, houtput, rfl | hline⟩
    · exact .inl ⟨output, houtput, rfl⟩
    · exact .inr ⟨output, houtput, hline⟩
  · rintro (⟨output, houtput, rfl⟩ | ⟨output, houtput, hline⟩)
    · exact ⟨output, houtput, .inl rfl⟩
    · exact ⟨output, houtput, .inr hline⟩

/-! ## A hotplug -/

/-- Two listings around a hotplug. Properties and their order are free in both. -/
structure Plugged where
  first : Listing
  second : Listing
  added : Text
  one_more : second.names.Perm (added :: first.names)
  fresh : added ∉ first.names

/-- What `wlr-randr` answers before the device is connected. -/
def Plugged.snapshot (plugged : Plugged) (taken : Bool) : Option Text :=
  if taken then some plugged.first.print else none

def Plugged.known (plugged : Plugged) (taken : Bool) : List Text :=
  if taken then plugged.first.words else []

/-- A round before the output is there: `wlr-randr` fails or still prints the first listing. -/
def Plugged.Waiting (plugged : Plugged) (poll : Poll) : Prop :=
  poll.late = false ∧ (poll.out = none ∨ poll.out = some plugged.first.print)

/-- The added output is told apart by the first words of lines. -/
structure Plugged.Discernible (plugged : Plugged) (taken : Bool) (waiting : List Poll) : Prop where
  /-- the snapshot has no property line that starts with its name -/
  unlisted : plugged.added ∉ plugged.known taken
  /-- every line above it starts with a word that a line of the snapshot starts with -/
  above : ∀ word ∈ plugged.second.words.takeWhile (· ≠ plugged.added), word ∈ plugged.known taken
  /-- without a snapshot, no output is listed before it is there -/
  unseen : taken = false → ∀ poll ∈ waiting, poll.out = some plugged.first.print →
    plugged.first = []

theorem Plugged.added_mem (plugged : Plugged) : plugged.added ∈ plugged.second.words :=
  Listing.mem_words.2 (.inl (plugged.one_more.mem_iff.2 (List.mem_cons_self ..)))

theorem Plugged.getD_snapshot (plugged : Plugged) (taken : Bool) :
    (wlrRandrOutputNames (plugged.snapshot taken)).getD [] = plugged.known taken := by
  cases taken with
  | false => rfl
  | true => exact congrArg (·.getD []) (wlrRandrOutputNames_print plugged.first)

theorem find?_fresh {before words : List Text} {word : Text}
    (h : (words.find? fun n => n ∉ before) = some word) : word ∉ before := by
  have hfresh := List.find?_some h
  exact of_decide_eq_true hfresh

/-- `find` returns an element that is there exactly if it passes and everything before it fails. -/
theorem find?_fresh_iff {before words : List Text} {added : Text} (hmem : added ∈ words) :
    (words.find? fun n => n ∉ before) = some added ↔
      added ∉ before ∧ ∀ word ∈ words.takeWhile (· ≠ added), word ∈ before := by
  induction words with
  | nil => cases hmem
  | cons word words ih =>
    by_cases hword : word = added
    · subst hword
      by_cases hbefore : word ∈ before
      · have hnot : (word :: words).find? (fun n => n ∉ before) ≠ some word := fun hfind =>
          find?_fresh hfind hbefore
        simp only [hnot, hbefore, not_true_eq_false, false_and]
      · simp [hbefore]
    · have hmem := (List.mem_cons.1 hmem).resolve_left (Ne.symm hword)
      rw [List.find?_cons, List.takeWhile_cons_of_pos (by simpa using hword)]
      by_cases hbefore : word ∈ before
      · simpa [hbefore] using ih hmem
      · simp [hbefore, hword]

/-- What it finds is not in the snapshot. -/
theorem discoverNewOutput_fresh {before : List Text} {polls : List Poll} {n : Text}
    (h : discoverNewOutput before polls = some (.ok n)) : n ∉ before := by
  induction polls with
  | nil => cases h
  | cons poll polls ih =>
    rw [discoverNewOutput] at h
    split at h
    · next newName hfind =>
      cases h
      obtain ⟨after, -, hfind⟩ := Option.bind_eq_some_iff.1 hfind
      exact find?_fresh hfind
    · split at h
      · cases h
      · exact ih h

/-- What a failed round or one with the first listing does, at whatever the loop looks for. -/
theorem discoverNewOutput_waiting {plugged : Plugged} {before : List Text} {waiting : List Poll}
    (hwaiting : ∀ poll ∈ waiting, plugged.Waiting poll) (polls : List Poll)
    (hother : (plugged.first.words.find? fun n => n ∉ before) ≠ some plugged.added) :
    discoverNewOutput before (waiting ++ polls) = some (.ok plugged.added) ↔
      (∀ poll ∈ waiting, poll.out = some plugged.first.print →
        ∀ word ∈ plugged.first.words, word ∈ before) ∧
        discoverNewOutput before polls = some (.ok plugged.added) := by
  induction waiting with
  | nil => simp
  | cons poll waiting ih =>
    obtain ⟨hlate, hout⟩ := hwaiting poll (List.mem_cons_self ..)
    have ih := ih fun q hq => hwaiting q (List.mem_cons_of_mem _ hq)
    rw [List.cons_append, discoverNewOutput, List.forall_mem_cons]
    obtain hout | hout := hout
    · simpa [hout, hlate, wlrRandrOutputNames] using ih
    · rw [hout, wlrRandrOutputNames_print, Option.bind_some]
      cases hfind : plugged.first.words.find? fun n => n ∉ before with
      | none =>
        have hknown : ∀ word ∈ plugged.first.words, word ∈ before := by
          simpa [List.find?_eq_none] using hfind
        simp only [hlate, Bool.false_eq_true, if_false, ih]
        exact ⟨fun ⟨hrest, hthere⟩ => ⟨⟨fun _ => hknown, hrest⟩, hthere⟩,
          fun ⟨⟨_, hrest⟩, hthere⟩ => ⟨hrest, hthere⟩⟩
      | some word =>
        have hword : word ≠ plugged.added := fun h => hother (h ▸ hfind)
        have hnew : ¬ ∀ word ∈ plugged.first.words, word ∈ before := fun h => by
          exact find?_fresh hfind (h word (List.mem_of_find?_eq_some hfind))
        simp [hword, hnew]

/-- While it waits, the loop never takes a word of the first listing for the added output's. -/
theorem Plugged.find?_first (plugged : Plugged) (taken : Bool) :
    (plugged.first.words.find? fun n => n ∉ plugged.known taken) ≠ some plugged.added := by
  intro hfind
  cases taken with
  | true =>
    exact find?_fresh hfind (List.mem_of_find?_eq_some hfind)
  | false =>
    cases hfirst : plugged.first with
    | nil => simp [hfirst, Listing.words] at hfind
    | cons output rest =>
      -- the first word of all is the first output's name
      have hname : output.name = plugged.added := by
        simpa [hfirst, Listing.words, ListedOutput.words, Plugged.known] using hfind
      exact plugged.fresh (by simp [hfirst, Listing.names, hname])

theorem Plugged.known_first (plugged : Plugged) (taken : Bool) :
    (∀ word ∈ plugged.first.words, word ∈ plugged.known taken) ↔
      (taken = false → plugged.first = []) := by
  cases taken with
  | true => simp [Plugged.known]
  | false =>
    cases hfirst : plugged.first with
    | nil => simp [Listing.words]
    | cons output rest =>
      have hword : output.name ∈ Listing.words (output :: rest) :=
        Listing.mem_words.2 (.inl (List.mem_cons_self ..))
      exact iff_of_false (fun h => List.not_mem_nil (h _ hword)) (by simp)

theorem discovered_iff (plugged : Plugged) (taken : Bool) {waiting : List Poll}
    (hwaiting : ∀ poll ∈ waiting, plugged.Waiting poll) {poll : Poll}
    (hpoll : poll.out = some plugged.second.print) (rest : List Poll) :
    VirtualOutput.discovered (plugged.snapshot taken) (waiting ++ poll :: rest) =
        some (.ok plugged.added) ↔ plugged.Discernible taken waiting := by
  have hthere : discoverNewOutput (plugged.known taken) (poll :: rest) = some (.ok plugged.added) ↔
      (plugged.second.words.find? fun n => n ∉ plugged.known taken) = some plugged.added := by
    rw [discoverNewOutput, hpoll, wlrRandrOutputNames_print, Option.bind_some]
    cases hfind : plugged.second.words.find? fun n => n ∉ plugged.known taken with
    | none =>
      -- every word is known, the added one too, and it is never found later
      have hknown : ∀ word ∈ plugged.second.words, word ∈ plugged.known taken := by
        simpa [List.find?_eq_none] using hfind
      have hadded := hknown _ plugged.added_mem
      refine iff_of_false (fun h => ?_) (by simp)
      simp only at h
      split at h
      · cases h
      · exact discoverNewOutput_fresh h hadded
    | some word => simp
  rw [VirtualOutput.discovered, plugged.getD_snapshot,
    discoverNewOutput_waiting hwaiting _ (plugged.find?_first taken), hthere,
    find?_fresh_iff plugged.added_mem, plugged.known_first]
  constructor
  · rintro ⟨hunseen, hunlisted, habove⟩
    exact ⟨hunlisted, habove, fun htaken poll hpoll hout => hunseen poll hpoll hout htaken⟩
  · rintro ⟨hunlisted, habove, hunseen⟩
    exact ⟨fun poll hpoll hout htaken => hunseen htaken poll hpoll hout, hunlisted, habove⟩

/-- **The listing read.** A hotplug is found exactly if the added output is told apart by first
words; an output is found by name exactly if no property line stands in for it. -/
theorem wlrRandrListing_iff (plugged : Plugged) (taken : Bool) (waiting : List Poll) (poll : Poll)
    (rest : List Poll) (hwaiting : ∀ earlier ∈ waiting, plugged.Waiting earlier)
    (hpoll : poll.out = some plugged.second.print) (listing : Listing) (name : Text) :
    (VirtualOutput.discovered (plugged.snapshot taken) (waiting ++ poll :: rest) =
        some (.ok plugged.added) ↔ plugged.Discernible taken waiting) ∧
      ((labwcOutputExists (some listing.print) name = true ↔ name ∈ listing.names) ↔
        ((∃ output ∈ listing, ∃ line ∈ output.properties, Text.firstWord line = some name) →
          name ∈ listing.names)) := by
  refine ⟨discovered_iff plugged taken hwaiting hpoll rest, ?_⟩
  rw [labwcOutputExists_print, Listing.mem_words]
  exact ⟨fun h hline => h.1 (.inr hline), fun h => ⟨fun hor => hor.elim id h, .inl⟩⟩

theorem indented_of_all {properties : List Text}
    (h : (properties.all fun line => line.head?.any Text.isWhitespace) = true) :
    ∀ line ∈ properties, ∃ c ∈ line.head?, Text.isWhitespace c = true := fun line hline =>
  (Option.any_eq_true ..).1 (List.all_eq_true.1 h line hline)

/-- A laptop's panel, off or on. -/
def panel (on : Bool) : ListedOutput where
  name := "eDP-1".toList
  description := " \"BOE 0x0BCA\"".toList
  properties :=
    if on then ["  Enabled: yes".toList, "  Position: 0,0".toList] else ["  Enabled: no".toList]
  name_ne := by decide +kernel
  name_word := Text.forall_mem_of_all (by decide +kernel)
  description_apart := fun c hc => by cases hc; rfl
  description_line := by decide +kernel
  indented := indented_of_all (by cases on <;> decide +kernel)
  properties_line := by cases on <;> decide +kernel

def connector : ListedOutput where
  name := "DVI-I-1".toList
  description := []
  properties := ["  Enabled: yes".toList]
  name_ne := by decide +kernel
  name_word := Text.forall_mem_of_all (by decide +kernel)
  description_apart := fun c hc => by cases hc
  description_line := by decide +kernel
  indented := indented_of_all (by decide +kernel)
  properties_line := by decide +kernel

/-- The connector appears, and the panel is on then or stays off. -/
def pluggedBeside (on : Bool) : Plugged where
  first := [panel false]
  second := [panel on, connector]
  added := "DVI-I-1".toList
  one_more := List.Perm.swap ..
  fresh := by decide +kernel

theorem discovered_beside :
    VirtualOutput.discovered ((pluggedBeside false).snapshot true)
        [⟨none, false⟩, ⟨some (pluggedBeside false).second.print, true⟩] =
          some (.ok "DVI-I-1".toList) ∧
      labwcOutputExists (some (pluggedBeside false).second.print) "DVI-I-1".toList = true := by
  have hwaiting : ∀ earlier ∈ [(⟨none, false⟩ : Poll)], (pluggedBeside false).Waiting earlier := by
    intro earlier hearlier
    rw [List.mem_singleton] at hearlier
    subst hearlier
    exact ⟨rfl, .inl rfl⟩
  obtain ⟨hfound, hlisted⟩ := wlrRandrListing_iff (pluggedBeside false) true [⟨none, false⟩]
    ⟨_, true⟩ [] hwaiting rfl (pluggedBeside false).second "DVI-I-1".toList
  have hnamed : "DVI-I-1".toList ∈ (pluggedBeside false).second.names := by decide +kernel
  exact ⟨hfound.2 ⟨by decide +kernel, by decide +kernel, by decide⟩,
    (hlisted.2 fun _ => hnamed).2 hnamed⟩

/-- The panel is switched on in the same hotplug, and its new property is taken for the output;
without the snapshot it is the panel itself. -/
theorem property_taken :
    VirtualOutput.discovered ((pluggedBeside true).snapshot true)
        [⟨some (pluggedBeside true).second.print, false⟩] = some (.ok "Position:".toList) ∧
      VirtualOutput.discovered ((pluggedBeside true).snapshot false)
        [⟨some (pluggedBeside true).second.print, false⟩] = some (.ok "eDP-1".toList) ∧
      labwcOutputExists (some (pluggedBeside true).second.print) "Enabled:".toList = true ∧
      (pluggedBeside true).second.names = ["eDP-1".toList, "DVI-I-1".toList] := by
  decide +kernel

end PadPlay.Daemon
