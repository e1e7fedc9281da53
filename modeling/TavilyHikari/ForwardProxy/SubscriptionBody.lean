/-
Module: TavilyHikari.ForwardProxy.SubscriptionBody
Purpose: What is read of the body of a subscription: plain text or base64, its proxy URLs, and
  the error for configuration files that cannot be read.
Trusted boundary: that of `ForwardProxy.Endpoint` and `ForwardProxy.ShareLinks`
Main exports: subscriptionBodyUsesUnsupportedStructure, decodeSubscriptionPayload,
  parseProxyUrlsFromSubscriptionBody, fetchedProxyUrls
-/
import TavilyHikari.ForwardProxy.Entries
import TavilyHikari.ForwardProxy.ShareLinks
import TavilyHikari.Library.Substring

namespace TavilyHikari.ForwardProxy

open Library

/-- The sections of a configuration file. -/
def unsupportedSections : List String :=
  ["proxies:", "proxy-providers:", "proxy-groups:", "rule-providers:"]

def subscriptionBodyUsesUnsupportedStructure (raw : String) : Bool :=
  ((lines raw).map trim).any fun line => line ∈ unsupportedSections

def decodeSubscriptionPayload (decode : Base64Decoder) (raw : String) : String :=
  let trimmed := trim raw
  if trimmed = "" then ""
  else if contains trimmed "://" ||
      ((lines trimmed).filter fun line => trim line ≠ "").any (contains · "://") then trimmed
  else
    let compact := withoutAsciiWhitespace trimmed
    let text := base64Engines.findSome? fun engine =>
      ((decode engine compact).bind String.fromUTF8?).filter (contains · "://")
    text.getD trimmed

variable (parsers : ProxyParsers) (decode : Base64Decoder)

def parseProxyUrlsFromSubscriptionBody (raw : String) : List String :=
  let decoded := decodeSubscriptionPayload decode raw
  if subscriptionBodyUsesUnsupportedStructure decoded then []
  else normalizeProxyUrlEntries parsers [decoded]

/-- `fetch_subscription_proxy_urls`, once the body of the response is there. -/
def fetchedProxyUrls (body : String) : Except String (List String) :=
  let urls := parseProxyUrlsFromSubscriptionBody parsers decode body
  if urls.isEmpty && subscriptionBodyUsesUnsupportedStructure body then
    .error "subscription contains no supported proxy entries"
  else .ok urls

end TavilyHikari.ForwardProxy
