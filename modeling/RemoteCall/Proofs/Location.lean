import RemoteCall.Proofs.Client.Moves
import RemoteCall.Proofs.Net.Address

/-!
# Locations that are written down

The text of a location is read back: an address always, and an entry of a directory if its endpoint
and its service are not empty and the service has no slash. The first `://` ends the scheme, since
no scheme has a colon. What follows is divided at its last slash, so an endpoint may have slashes; a
service with a slash leaves a part of its name to the endpoint.

Somebody who asks for a service by the text of such a location gets a pool that looks the service up
where it is.

## Main results

* `Location.parse_text_address`, `Location.parse_text_directory` : what the texts are read as.
* `Service.location_read_back` : which services have a location that is read back, and what a client
  that is given its text looks up.
* `Service.location_with_slash` : a service whose location is not.
-/

namespace RemoteCall

namespace Location

/-! ### Texts -/

/-- A scheme without a colon ends at the first `://`. -/
theorem splitScheme?_append {scheme : List Char} (h : ':' ∉ scheme) (rest : List Char) :
    splitScheme? (scheme ++ ':' :: '/' :: '/' :: rest) = some (scheme, rest) := by
  induction scheme with
  | nil => rfl
  | cons c scheme ih =>
    have hne : c ≠ ':' := fun heq => h (heq ▸ List.mem_cons_self)
    rw [List.cons_append, splitScheme?, ih fun hmem => h (List.mem_cons_of_mem c hmem)]
    · rfl
    · rintro tail rfl -
      exact hne rfl

/-- An address is read back. -/
theorem parse_text_address (a : SocketAddress) : parse (address a).text = .ok (address a) := by
  have htext : (address a).text.toList =
      addressScheme.toList ++ ':' :: '/' :: '/' :: a.text.toList := by
    simp [text, String.toList_append]
  rw [parse, parseChars, htext, splitScheme?_append (by decide)]
  simp [SocketAddress.resolve_text, Except.map, Except.mapError]

/-- What stands behind the scheme of an entry is read on its own. -/
theorem parse_text_directory (endpoint service : String) :
    parse (directory endpoint service).text =
      (parseEntry (endpoint.toList ++ '/' :: service.toList)).mapError
        (Failure.toError (directory endpoint service).text) := by
  have htext : (directory endpoint service).text.toList = directoryScheme.toList ++
      ':' :: '/' :: '/' :: (endpoint.toList ++ '/' :: service.toList) := by
    simp [text, String.toList_append]
  have hother : directoryScheme ≠ addressScheme := by decide
  rw [parse, parseChars, htext, splitScheme?_append (by decide)]
  simp [hother]

/-- An entry is divided at its last slash, and both parts have to be there. -/
theorem parseEntry_append {front back : String} (h : '/' ∉ back.toList) :
    parseEntry (front.toList ++ '/' :: back.toList) =
      if front = "" ∨ back = "" then .error .emptyPart else .ok (directory front back) := by
  rw [parseEntry, SocketAddress.splitLast?_append h]
  simp

variable {endpoint service front back : String}

/-- Which entry the text of an entry is read as. -/
theorem parse_text_directory_of_eq (hback : '/' ∉ back.toList)
    (h : endpoint ++ "/" ++ service = front ++ "/" ++ back) :
    parse (directory endpoint service).text =
      if front = "" ∨ back = "" then
        .error (Failure.emptyPart.toError (directory endpoint service).text)
      else .ok (directory front back) := by
  have hchars : endpoint.toList ++ '/' :: service.toList = front.toList ++ '/' :: back.toList := by
    simpa [String.toList_append] using congrArg String.toList h
  rw [parse_text_directory, hchars, parseEntry_append hback]
  split <;> rfl

/-- An entry is read back if both parts are there and the service has no slash, and only then. -/
theorem parse_text_directory_eq_ok_iff :
    parse (directory endpoint service).text = .ok (directory endpoint service) ↔
      endpoint ≠ "" ∧ service ≠ "" ∧ '/' ∉ service.toList := by
  constructor
  · intro hread
    obtain ⟨front, back, hchars, hback⟩ := SocketAddress.exists_eq_append_last
      (List.mem_append_right endpoint.toList (List.mem_cons_self (a := '/') (l := service.toList)))
    have hstrings : endpoint ++ "/" ++ service = .ofList front ++ "/" ++ .ofList back := by
      apply String.toList_inj.mp
      simpa [String.toList_append] using hchars
    rw [parse_text_directory_of_eq (by rwa [String.toList_ofList]) hstrings] at hread
    split at hread
    · cases hread
    · rename_i hparts
      obtain ⟨rfl, rfl⟩ := Location.directory.inj (Except.ok.inj hread)
      rw [String.toList_ofList]
      exact ⟨fun h => hparts (Or.inl h), fun h => hparts (Or.inr h), hback⟩
  · rintro ⟨hendpoint, hservice, hslash⟩
    rw [parse_text_directory_of_eq hslash rfl, if_neg]
    rintro (h | h)
    · exact hendpoint h
    · exact hservice h

end Location

/-! ### What a client looks up -/

namespace Client

/-- What a pool connects first: the addresses under the endpoint and the name of the service, or its
own address. -/
theorem firstSlots_of_location (c : Client) (p : PoolId) {pool : Pool} {s : Service}
    (h : pool.location = s.location) :
    c.firstSlots p pool =
      match s.endpoint with
      | some endpoint => c.resolve p pool endpoint s.name
      | none => .ok ([⟨s.address, 0, false, []⟩], c) := by
  rw [firstSlots, h, Service.location]
  cases s.endpoint <;> rfl

namespace Activity

variable {a : Activity} {k : TaskId} {service text : String} {place : Location}

/-- A location that was read is the location of a new pool. -/
theorem step_allowed (ht : a.tasks[k]? = some (.connect service text .allowed))
    (hread : Location.parse text = .ok place) (luck : Bool) :
    a.step (.task k luck) = a.perform k
      { task := .connect service text (.registered a.client.pools.length)
        client :=
          { a.client with pools := a.client.pools ++ [.new (serviceId service) place] } } := by
  simp only [step, ht, act, connectNext, hread]

/-- A pool stays where it is. -/
theorem location?_run {p : PoolId} (h : a.client.location? p = some place) (moves : List Move) :
    (a.run moves).client.location? p = some place := by
  refine run_induction (P := fun b => b.client.location? p = some place) (fun b b' hb h => ?_) h
    moves
  exact (steady_stepped hb).location? p place h

end Activity

end Client

/-! ### Services -/

namespace Service

/-- The location of a service without an endpoint is read back from its text, and that of one with
an endpoint exactly if endpoint and name are not empty and the name has no slash. In any case the
text of an entry is divided at its last slash, and refused if a part is then empty. A client that is
given the text of a location that is read back gets a pool that looks up, whatever else happens, the
endpoint and the name of the service, or connects to its address. -/
theorem location_read_back (s : Service) :
    (Location.parse s.location.text = .ok s.location ↔
      ∀ endpoint, s.endpoint = some endpoint →
        endpoint ≠ "" ∧ s.name ≠ "" ∧ '/' ∉ s.name.toList) ∧
    (∀ endpoint, s.endpoint = some endpoint → ∀ front back : String, '/' ∉ back.toList →
      endpoint ++ "/" ++ s.name = front ++ "/" ++ back →
        Location.parse s.location.text =
          if front = "" ∨ back = "" then
            .error (Location.Failure.emptyPart.toError s.location.text)
          else .ok (.directory front back)) ∧
    (Location.parse s.location.text = .ok s.location →
      ∀ (a : Client.Activity) (k : Client.TaskId) (service : String) (luck : Bool),
        a.tasks[k]? = some (.connect service s.location.text .allowed) →
        let p := a.client.pools.length
        let b := a.step (.task k luck)
        b.tasks[k]? = some (.connect service s.location.text (.registered p)) ∧
          ∀ moves, ∃ pool, (b.run moves).client.pool? p = some pool ∧
            (b.run moves).client.firstSlots p pool =
              match s.endpoint with
              | some endpoint => (b.run moves).client.resolve p pool endpoint s.name
              | none => .ok ([⟨s.address, 0, false, []⟩], (b.run moves).client)) := by
  refine ⟨?_, fun endpoint hendpoint front back hback htext => ?_,
    fun hread a k service luck ht => ?_⟩
  · cases hendpoint : s.endpoint with
    | none => simp [location, hendpoint, Location.parse_text_address]
    | some endpoint =>
      simp only [location, hendpoint, Location.parse_text_directory_eq_ok_iff, Option.some.injEq,
        forall_eq']
  · simp only [location, hendpoint]
    exact Location.parse_text_directory_of_eq hback htext
  · intro p b
    have hstep : b = a.perform k _ := Client.Activity.step_allowed ht hread luck
    have hlocation : b.client.location? p = some s.location := by
      rw [hstep]
      simp [Client.Activity.perform, Client.location?, Client.pool?, p, Pool.new]
    refine ⟨?_, fun moves => ?_⟩
    · have hk : k < a.tasks.length := (List.getElem?_eq_some_iff.mp ht).1
      rw [hstep]
      simp [Client.Activity.perform, hk, p]
    · have hkept := Client.Activity.location?_run hlocation moves
      obtain ⟨pool, hpool, hplace⟩ := Option.map_eq_some_iff.mp hkept
      exact ⟨pool, hpool, (b.run moves).client.firstSlots_of_location p hplace⟩

/-- A service in a part of a directory is looked up where its location says. -/
theorem location_read_back_hello :
    let s := (Service.new "hello" (.loopback 9000)).withEndpoint "zk:2181/prod"
    let a := ((Client.Activity.start .standard .standard none 1).step
      (.connect "hello" s.location.text)).step (.task 0 true)
    Location.parse s.location.text = .ok (.directory "zk:2181/prod" "hello") ∧
      a.tasks[0]? = some (.connect "hello" s.location.text .allowed) ∧
      ∃ pool, (a.step (.task 0 true)).client.pool? 0 = some pool ∧
        (a.step (.task 0 true)).client.firstSlots 0 pool =
          (a.step (.task 0 true)).client.resolve 0 pool "zk:2181/prod" "hello" := by
  intro s a
  have hparts : ∀ endpoint, s.endpoint = some endpoint →
      endpoint ≠ "" ∧ s.name ≠ "" ∧ '/' ∉ s.name.toList := by
    intro endpoint hendpoint
    obtain rfl : "zk:2181/prod" = endpoint := Option.some.inj hendpoint
    exact ⟨by decide, by decide, by decide⟩
  have hread := (location_read_back s).1.mpr hparts
  have ht : a.tasks[0]? = some (.connect "hello" s.location.text .allowed) := rfl
  exact ⟨hread, ht, ((location_read_back s).2.2 hread a 0 "hello" true ht).2 []⟩

/-- The name of a service with a slash is divided when its location is read. -/
theorem location_with_slash :
    let s := (Service.new "a/b" (.loopback 9000)).withEndpoint "zk"
    s.location = .directory "zk" "a/b" ∧ s.location.text = "discovery://zk/a/b" ∧
      Location.parse s.location.text = .ok (.directory "zk/a" "b") ∧
      Location.parse s.location.text ≠ .ok s.location := by
  intro s
  have htext : "zk" ++ "/" ++ "a/b" = "zk/a" ++ "/" ++ "b" := by decide
  have hread : Location.parse s.location.text = .ok (.directory "zk/a" "b") :=
    Location.parse_text_directory_of_eq (by decide) htext
  refine ⟨rfl, by decide, hread, fun h => ?_⟩
  rw [hread] at h
  exact absurd (Except.ok.inj h) (by decide)

end Service

end RemoteCall
