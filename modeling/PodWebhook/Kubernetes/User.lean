import PodWebhook.Kubernetes.Record

/-!
The user on whose behalf a request is made.
-/

namespace PodWebhook.Kubernetes

open Schema

def userInfo : Shape :=
  object "UserInfo"
    [maybe "extra" (.map (.list .text)), maybe "groups" (.list .text), maybe "uid" .text,
      maybe "username" .text]

end PodWebhook.Kubernetes
