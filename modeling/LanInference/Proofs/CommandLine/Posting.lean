/-
# Where commands post

A chat or a pull with an endpoint posts to the text of that URL with the path of its provider's
interface put behind it. If the endpoint ends with its path, the request goes to that path, without
the slashes at its end, and the interface's path below it, at the endpoint's own server. But the
endpoint is asked for no more than a scheme and a host, and with a query or a fragment it ends with
that: then the interface's path is put there, and the request goes to the endpoint's path as it is.
It is the same server all the while, if it can be read at all: the name of a host with a code that
is too long is written in a URL and not read from it again, and nothing is posted.

Key definitions: `Invocation.post?`, `Url.IsBelow`, `StreamRequest.PostsBelow`.
Key theorems: `Url.IsWritten.isBelow_extended`, `StreamKind.toList_url_chat`,
`Surroundings.posts_below`.
-/
import LanInference.CommandLine.Commands
import LanInference.Proofs.Net.Url

namespace LanInference

open Text

/-! ### Paths below an endpoint -/

/-- The path of a chat at a provider's interface. -/
def Provider.chatPlace : Provider → String
  | ollama => "/api/chat"
  | _ => "/v1/chat/completions"

/-- The endpoint that a command gives, and the path that it asks for there. -/
def Invocation.post? : Invocation → Option (String × String)
  | .chat (some endpoint) provider _ _ _ _ => some (endpoint, provider.chatPlace)
  | .pull endpoint _ => some (endpoint, "/api/pull")
  | _ => none

/-- A path is one of segments that can stand anywhere in a URL, and more than slashes. -/
def IsPlace (place : List Char) : Prop :=
  ∃ segments : List (List Char), segments ≠ [] ∧ (∀ s ∈ segments, Url.IsCommonSegment s) ∧
    place = segments.flatMap ('/' :: ·) ∧ ∃ c, place.getLast? = some c ∧ c ≠ '/'

theorem isPlace_of_post? {i : Invocation} {endpoint place : String}
    (h : i.post? = some (endpoint, place)) : IsPlace place.toList := by
  have hchat : IsPlace "/api/chat".toList :=
    ⟨["api".toList, "chat".toList], by decide, by decide, by decide, 't', by decide, by decide⟩
  have hcompletions : IsPlace "/v1/chat/completions".toList :=
    ⟨["v1".toList, "chat".toList, "completions".toList], by decide, by decide, by decide, 's',
      by decide, by decide⟩
  have hpull : IsPlace "/api/pull".toList :=
    ⟨["api".toList, "pull".toList], by decide, by decide, by decide, 'l', by decide, by decide⟩
  unfold Invocation.post? at h
  split at h
  · rename_i provider _ _ _ _
    cases h
    cases provider
    · exact hchat
    · exact hcompletions
    · exact hcompletions
  · cases h
    exact hpull
  · cases h

namespace Url

/-- A URL at the server of another one, with this path behind what that ends with. A request for it
has the path below the other one's path if that URL has nothing behind its own. -/
structure IsBelow (v u : Url) (place : List Char) : Prop where
  secure : v.secure = u.secure
  user : v.user = u.user
  host : v.host = u.host
  port : v.port = u.port
  path_iff : v.pathText = dropTrailing (· == '/') u.pathText ++ place ↔
    u.query = none ∧ u.fragment = none
  target_of_path : u.query = none → u.fragment = none →
    v.target.toList = dropTrailing (· == '/') u.pathText ++ place
  target_of_query : ∀ q, u.query = some q → u.fragment = none →
    v.target.toList = u.pathText ++ '?' :: (dropTrailing (· == '/') q ++ place)
  target_of_fragment : ∀ f, u.fragment = some f → v.target = u.target

/-- Without the slashes at its end and with more behind it that does not end in one, a text is
another. -/
theorem dropTrailing_append_ne {cs place : List Char} {c : Char} (hlast : place.getLast? = some c)
    (hc : c ≠ '/') : cs ≠ dropTrailing (· == '/') cs ++ place := by
  intro heq
  have hne : place ≠ [] := by
    rintro rfl
    cases hlast
  have hkept : dropTrailing (· == '/') cs = cs := dropTrailing_of_getLast? _ _ fun d hd => by
    rw [heq, List.getLast?_append_of_ne_nil _ hne, hlast] at hd
    cases hd
    simpa using hc
  rw [hkept] at heq
  exact hne (List.append_right_eq_self.mp heq.symm)

theorem toList_target (u : Url) : u.target.toList = u.pathText ++ u.queryText :=
  String.toList_ofList

/-- A URL with segments behind its text is below it. -/
theorem IsWritten.isBelow_extended {u : Url} (h : u.IsWritten) {more : List (List Char)} {c : Char}
    (hlast : (more.flatMap ('/' :: ·)).getLast? = some c) (hc : c ≠ '/') :
    (u.extended more).IsBelow u (more.flatMap ('/' :: ·)) where
  secure := secure_extended
  user := user_extended
  host := host_extended
  port := port_extended
  path_iff := by
    constructor
    · intro hpath
      by_contra hbehind
      rw [pathText, path_extended (not_and_or.mp hbehind)] at hpath
      exact dropTrailing_append_ne hlast hc hpath
    · rintro ⟨hq, hf⟩
      exact h.pathText_extended hq hf
  target_of_path := by
    intro hq hf
    have hquery : (u.extended more).queryText = [] := by
      rw [queryText, query_extended hf, hq]
      rfl
    rw [toList_target, h.pathText_extended hq hf, hquery, List.append_nil]
  target_of_query := by
    intro q hq hf
    have hpath : (u.extended more).path = u.path := path_extended (.inl (by simp [hq]))
    rw [toList_target, queryText, query_extended hf, hq, pathText, hpath]
    rfl
  target_of_fragment := by
    intro f hf
    rw [extended_of_fragment hf]
    rfl

end Url

/-! ### Requests below an endpoint -/

/-- What is put behind a server's text is behind it without its slashes, and stays as it is. -/
theorem toList_url_append (s : String) {k : StreamKind} {base path place : String} {c : Char}
    (hlast : base.toList.getLast? = some c) (hc : c ≠ '/') (hpath : k.path = path)
    (hplace : place.toList = base.toList ++ '/' :: path.toList) :
    (k.url (stripTrailing '/' s ++ base)).toList =
      dropTrailing (· == '/') s.toList ++ place.toList := by
  have hbase : (stripTrailing '/' s ++ base).toList =
      dropTrailing (· == '/') s.toList ++ base.toList := by
    rw [String.toList_append, stripTrailing, String.toList_ofList]
  have hkept : dropTrailing (· == '/') base.toList = base.toList :=
    dropTrailing_of_getLast? _ _ fun d hd => by
      rw [hlast] at hd
      cases hd
      simpa using hc
  have hne : dropTrailing (· == '/') base.toList ≠ [] := by
    intro hnil
    rw [← hkept, hnil] at hlast
    cases hlast
  calc (k.url (stripTrailing '/' s ++ base)).toList
      = dropTrailing (· == '/') (stripTrailing '/' s ++ base).toList ++ '/' :: k.path.toList := by
        rw [StreamKind.url, String.toList_append, String.toList_append, stripTrailing,
          String.toList_ofList, List.append_assoc]
        rfl
    _ = dropTrailing (· == '/') s.toList ++ place.toList := by
        rw [hbase, dropTrailing_append, if_neg hne, hkept, List.append_assoc, hpath,
          hplace]

/-- A chat is asked for behind a server's text without its slashes. -/
theorem StreamKind.toList_url_chat (p : Provider) (model : String) (messages : List ChatMessage)
    (s : String) : ((StreamKind.chat p model messages).url (p.apiBase s)).toList =
      dropTrailing (· == '/') s.toList ++ p.chatPlace.toList := by
  have hchat : "/api/chat".toList = "/api".toList ++ '/' :: "chat".toList := by decide
  have hcompletions : "/v1/chat/completions".toList =
      "/v1".toList ++ '/' :: "chat/completions".toList := by decide
  have hapi : "/api".toList.getLast? = some 'i' := by decide
  have hversion : "/v1".toList.getLast? = some '1' := by decide
  cases p
  · exact toList_url_append s hapi (by decide) rfl hchat
  · exact toList_url_append s hversion (by decide) rfl hcompletions
  · exact toList_url_append s hversion (by decide) rfl hcompletions

theorem StreamKind.toList_url_pull (name s : String) :
    ((StreamKind.pull name).url (Provider.ollama.apiBase s)).toList =
      dropTrailing (· == '/') s.toList ++ "/api/pull".toList := by
  have hpull : "/api/pull".toList = "/api".toList ++ '/' :: "pull".toList := by decide
  have hapi : "/api".toList.getLast? = some 'i' := by decide
  exact toList_url_append s hapi (by decide) rfl hpull

/-- A request that posts below a URL, if that URL's host can be read again. -/
structure StreamRequest.PostsBelow (r : StreamRequest) (u : Url) (place : List Char) : Prop where
  url_below : u.host.HasReadableCodes → ∃ v, Url.parse? r.url = some v ∧ v.IsBelow u place
  isSome_http?_iff : r.http?.isSome = true ↔
    u.host.HasReadableCodes ∧ r.authorization.all isHeaderValue = true
  target_eq : ∀ m, r.http? = some m →
    ∃ v, Url.parse? r.url = some v ∧ m.method = "POST" ∧ m.target = v.target

/-- What is asked for at the text of a URL with a path behind it is asked for below the URL. -/
theorem StreamRequest.postsBelow {r : StreamRequest} {u : Url} (h : u.IsWritten)
    {place : List Char} (hplace : IsPlace place)
    (hurl : r.url.toList = dropTrailing (· == '/') u.text.toList ++ place) :
    r.PostsBelow u place := by
  obtain ⟨more, hne, hmore, rfl, c, hlast, hc⟩ := hplace
  have hread := h.parse?_append hne hmore hurl
  refine ⟨fun hcodes => ?_, ?_, fun m hm => ?_⟩
  · rw [if_pos hcodes] at hread
    exact ⟨_, hread, h.isBelow_extended hlast hc⟩
  · unfold http?
    rw [hread]
    by_cases hcodes : u.host.HasReadableCodes
    · rw [if_pos hcodes]
      simp [hcodes]
    · rw [if_neg hcodes]
      simp [hcodes]
  · unfold http? at hm
    split at hm
    · obtain ⟨v, hv, rfl⟩ := Option.map_eq_some_iff.mp hm
      exact ⟨v, hv, rfl, rfl⟩
    · cases hm

namespace Surroundings

theorem apiBase_of_read {s : Settings} {p : Provider} {endpoint : String} {u : Url}
    (h : Url.read endpoint = .web u) : apiBase s p (some endpoint) = .ok (p.apiBase u.text) := by
  unfold apiBase
  simp only [h]

/-- **A command posts below its endpoint,** whatever URL of a web server that is. -/
theorem posts_below (w : Surroundings) {i : Invocation} {endpoint place : String} {u : Url}
    (hi : i.post? = some (endpoint, place)) (hu : Url.read endpoint = .web u) :
    ∃ r, w.request? i = some (.ok r) ∧ r.PostsBelow u place.toList := by
  have hwritten := Url.isWritten_of_read hu
  have hplace := isPlace_of_post? hi
  unfold Invocation.post? at hi
  split at hi
  · rename_i p model token system message
    cases hi
    let messages := (system.map (ChatMessage.mk .system)).toList ++ [⟨.user, message⟩]
    refine ⟨{ id := w.newId, kind := .chat p model messages, apiBase := p.apiBase u.text, token },
      ?_, ?_⟩
    · simp only [request?, apiBase_of_read hu]
      rfl
    · exact StreamRequest.postsBelow hwritten hplace
        (StreamKind.toList_url_chat p model messages u.text)
  · rename_i name
    cases hi
    refine ⟨{ id := w.newId, kind := .pull name, apiBase := Provider.ollama.apiBase u.text },
      ?_, ?_⟩
    · simp only [request?, apiBase_of_read hu]
      rfl
    · exact StreamRequest.postsBelow hwritten hplace (StreamKind.toList_url_pull name u.text)
  · cases hi

/-- A run in an empty directory, with the settings there are without a file. -/
def freshRun : Surroundings where
  settings := .defaults fun _ => none
  directory := .empty
  newId := ⟨1⟩
  script := ⟨.status 200, []⟩

/-- A server behind a proxy, with more slashes than it needs. -/
def proxyUrl : Url where
  secure := false
  host := .name "gpu".toList
  port := some 8080
  path := ["proxy".toList, [], []]

def proxyChat : Invocation := .chat (some "http://gpu:8080/proxy//") .openAi "m" none none "hi"

theorem posts_below_of_proxyChat :
    proxyChat.post? = some ("http://gpu:8080/proxy//", "/v1/chat/completions") ∧
      Url.read "http://gpu:8080/proxy//" = .web proxyUrl ∧
      ∃ r v, freshRun.request? proxyChat = some (.ok r) ∧ Url.parse? r.url = some v ∧
        v.secure = false ∧ v.host = .name "gpu".toList ∧ v.port = some 8080 ∧
        v.pathText = "/proxy/v1/chat/completions".toList := by
  have hi : proxyChat.post? = some ("http://gpu:8080/proxy//", "/v1/chat/completions") := rfl
  have hu : Url.read "http://gpu:8080/proxy//" = .web proxyUrl := by decide +kernel
  obtain ⟨r, hr, hbelow⟩ := posts_below freshRun hi hu
  obtain ⟨v, hv, hv'⟩ := hbelow.url_below (by decide +kernel)
  refine ⟨hi, hu, r, v, hr, hv, hv'.secure, hv'.host, hv'.port, ?_⟩
  rw [hv'.path_iff.mpr ⟨rfl, rfl⟩]
  decide +kernel

/-- An endpoint that ends with a query. -/
def queryUrl : Url where
  secure := false
  host := .name "gpu".toList
  path := [[]]
  query := some "q=1".toList

/-- A pull there goes to the root of the server, with the interface's path in the query. -/
theorem pull_root_of_queryUrl :
    Url.read "http://gpu/?q=1" = .web queryUrl ∧
      ∃ r v, freshRun.request? (.pull "http://gpu/?q=1" "m") = some (.ok r) ∧
        Url.parse? r.url = some v ∧ v.target = "/?q=1/api/pull" ∧
        v.pathText ≠ dropTrailing (· == '/') queryUrl.pathText ++ "/api/pull".toList := by
  have hr : freshRun.request? (.pull "http://gpu/?q=1" "m") = some (.ok
      { id := ⟨1⟩, kind := .pull "m", apiBase := "http://gpu/?q=1/api" }) := by decide +kernel
  have hv : Url.parse? "http://gpu/?q=1/api/pull" =
      some { queryUrl with query := some "q=1/api/pull".toList } := by decide +kernel
  exact ⟨by decide +kernel, _, _, hr, hv, by decide +kernel, by decide +kernel⟩

end Surroundings
end LanInference
