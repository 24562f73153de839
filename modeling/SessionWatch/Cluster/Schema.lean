import SessionWatch.Cluster.Object

/-!
What counts as a node and as a pod. The watches work over any schema, and the one given here has
the fields of the v1 objects of Kubernetes 1.28: any field may be missing or null, and one that the
schema does not name is passed over.
-/

namespace SessionWatch.Cluster

/-- The objects that can be read as nodes, and those that can be read as pods. -/
structure Schema where
  node : Object → Bool
  pod : Object → Bool

namespace Schema

open Shape (each)

def texts (names : List String) : Shape := .record (each .text names)

/-- A port by its number or by its name. -/
def port : Shape := .either (.int 32) .text

/-! ### Nodes -/

def nodeCondition : Shape := .record
  (each .text ["message", "reason", "status", "type"] ++
    each .time ["lastHeartbeatTime", "lastTransitionTime"])

def taint : Shape := .record (each .text ["effect", "key", "value"] ++ [("timeAdded", .time)])

def configSource : Shape := .record
  [("configMap", texts ["kubeletConfigKey", "name", "namespace", "resourceVersion", "uid"])]

def nodeConfig : Shape := .record
  (each configSource ["active", "assigned", "lastKnownGood"] ++ [("error", .text)])

def nodeSpec : Shape := .record
  (each .text ["externalID", "podCIDR", "providerID"] ++
    [("configSource", configSource), ("podCIDRs", .list .text), ("taints", .list taint),
      ("unschedulable", .bool)])

def nodeInfo : Shape := texts
  ["architecture", "bootID", "containerRuntimeVersion", "kernelVersion", "kubeProxyVersion",
    "kubeletVersion", "machineID", "operatingSystem", "osImage", "systemUUID"]

def nodeStatus : Shape := .record
  (each (.map .text) ["allocatable", "capacity"] ++
    [("addresses", .list (texts ["address", "type"])), ("conditions", .list nodeCondition),
      ("config", nodeConfig),
      ("daemonEndpoints", .record [("kubeletEndpoint", .record [("Port", .int 32)])]),
      ("images", .list (.record [("names", .list .text), ("sizeBytes", .int 64)])),
      ("nodeInfo", nodeInfo), ("phase", .text),
      ("volumesAttached", .list (texts ["devicePath", "name"])),
      ("volumesInUse", .list .text)])

/-! ### Selectors and affinity of pods -/

def requirement : Shape := .record (each .text ["key", "operator"] ++ [("values", .list .text)])

def labelSelector : Shape := .record
  [("matchExpressions", .list requirement), ("matchLabels", .map .text)]

def nodeSelectorTerm : Shape := .record
  (each (.list requirement) ["matchExpressions", "matchFields"])

def nodeAffinity : Shape := .record
  [("preferredDuringSchedulingIgnoredDuringExecution",
      .list (.record [("preference", nodeSelectorTerm), ("weight", .int 32)])),
    ("requiredDuringSchedulingIgnoredDuringExecution",
      .record [("nodeSelectorTerms", .list nodeSelectorTerm)])]

def podAffinityTerm : Shape := .record
  (each labelSelector ["labelSelector", "namespaceSelector"] ++
    [("namespaces", .list .text), ("topologyKey", .text)])

def podAffinity : Shape := .record
  [("preferredDuringSchedulingIgnoredDuringExecution",
      .list (.record [("podAffinityTerm", podAffinityTerm), ("weight", .int 32)])),
    ("requiredDuringSchedulingIgnoredDuringExecution", .list podAffinityTerm)]

def affinity : Shape := .record
  ([("nodeAffinity", nodeAffinity)] ++ each podAffinity ["podAffinity", "podAntiAffinity"])

def toleration : Shape := .record
  (each .text ["effect", "key", "operator", "value"] ++ [("tolerationSeconds", .int 64)])

def spreadConstraint : Shape := .record
  (each .text ["nodeAffinityPolicy", "nodeTaintsPolicy", "topologyKey", "whenUnsatisfiable"] ++
    each (.int 32) ["maxSkew", "minDomains"] ++
    [("labelSelector", labelSelector), ("matchLabelKeys", .list .text)])

/-! ### Containers -/

def fieldRef : Shape := texts ["apiVersion", "fieldPath"]

def resourceFieldRef : Shape := texts ["containerName", "divisor", "resource"]

/-- A reference by name that may be to nothing. -/
def optionalRef (names : List String) : Shape := .record
  (each .text names ++ [("optional", .bool)])

def environmentSource : Shape := .record
  (each (optionalRef ["key", "name"]) ["configMapKeyRef", "secretKeyRef"] ++
    [("fieldRef", fieldRef), ("resourceFieldRef", resourceFieldRef)])

def environmentEntry : Shape := .record
  (each .text ["name", "value"] ++ [("valueFrom", environmentSource)])

def environmentFile : Shape := .record
  (each (optionalRef ["name"]) ["configMapRef", "secretRef"] ++ [("prefix", .text)])

def commandAction : Shape := .record [("command", .list .text)]

def httpAction : Shape := .record
  (each .text ["host", "path", "scheme"] ++
    [("httpHeaders", .list (texts ["name", "value"])), ("port", port)])

def socketAction : Shape := .record [("host", .text), ("port", port)]

def lifecycleHandler : Shape := .record
  [("exec", commandAction), ("httpGet", httpAction), ("tcpSocket", socketAction)]

def probe : Shape := .record
  (each (.int 32) ["failureThreshold", "initialDelaySeconds", "periodSeconds", "successThreshold",
      "timeoutSeconds"] ++
    [("exec", commandAction), ("grpc", .record [("port", .int 32), ("service", .text)]),
      ("httpGet", httpAction), ("tcpSocket", socketAction),
      ("terminationGracePeriodSeconds", .int 64)])

def resources : Shape := .record
  (each (.map .text) ["limits", "requests"] ++ [("claims", .list (texts ["name"]))])

def seLinuxOptions : Shape := texts ["level", "role", "type", "user"]

def seccompProfile : Shape := texts ["localhostProfile", "type"]

def windowsOptions : Shape := .record
  (each .text ["gmsaCredentialSpec", "gmsaCredentialSpecName", "runAsUserName"] ++
    [("hostProcess", .bool)])

/-- What pods and containers can both say about security. -/
def sharedSecurity : List (String × Shape) :=
  each (.int 64) ["runAsGroup", "runAsUser"] ++
    [("runAsNonRoot", .bool), ("seLinuxOptions", seLinuxOptions),
      ("seccompProfile", seccompProfile), ("windowsOptions", windowsOptions)]

def containerSecurity : Shape := .record
  (sharedSecurity ++
    each .bool ["allowPrivilegeEscalation", "privileged", "readOnlyRootFilesystem"] ++
    [("capabilities", .record (each (.list .text) ["add", "drop"])), ("procMount", .text)])

def podSecurity : Shape := .record
  (sharedSecurity ++
    [("fsGroup", .int 64), ("fsGroupChangePolicy", .text),
      ("supplementalGroups", .list (.int 64)), ("sysctls", .list (texts ["name", "value"]))])

def containerPort : Shape := .record
  (each (.int 32) ["containerPort", "hostPort"] ++ each .text ["hostIP", "name", "protocol"])

def volumeMount : Shape := .record
  (each .text ["mountPath", "mountPropagation", "name", "subPath", "subPathExpr"] ++
    [("readOnly", .bool)])

/-- A container; one that is put in later names the container that it looks into. -/
def container : List (String × Shape) :=
  each .text ["image", "imagePullPolicy", "name", "restartPolicy", "terminationMessagePath",
      "terminationMessagePolicy", "workingDir"] ++
    each .bool ["stdin", "stdinOnce", "tty"] ++
    each (.list .text) ["args", "command"] ++
    each probe ["livenessProbe", "readinessProbe", "startupProbe"] ++
    [("env", .list environmentEntry), ("envFrom", .list environmentFile),
      ("lifecycle", .record (each lifecycleHandler ["postStart", "preStop"])),
      ("ports", .list containerPort),
      ("resizePolicy", .list (texts ["resourceName", "restartPolicy"])), ("resources", resources),
      ("securityContext", containerSecurity),
      ("volumeDevices", .list (texts ["devicePath", "name"])),
      ("volumeMounts", .list volumeMount)]

/-! ### Volumes -/

/-- A volume of some kind, which may be there only to be read. -/
def readable (names : List String) (others : List (String × Shape)) : Shape :=
  .record (each .text names ++ [("readOnly", .bool)] ++ others)

def secretRef : Shape := texts ["name"]

def keyPaths : Shape := .list (.record (each .text ["key", "path"] ++ [("mode", .int 32)]))

def downwardFiles : Shape := .list (.record
  [("fieldRef", fieldRef), ("mode", .int 32), ("path", .text),
    ("resourceFieldRef", resourceFieldRef)])

def projection : Shape := .record
  (each (.record [("items", keyPaths), ("name", .text), ("optional", .bool)])
      ["configMap", "secret"] ++
    [("downwardAPI", .record [("items", downwardFiles)]),
      ("serviceAccountToken", .record
        (each .text ["audience", "path"] ++ [("expirationSeconds", .int 64)]))])

def claimSpec : Shape := .record
  (each .text ["storageClassName", "volumeMode", "volumeName"] ++
    [("accessModes", .list .text), ("dataSource", texts ["apiGroup", "kind", "name"]),
      ("dataSourceRef", texts ["apiGroup", "kind", "name", "namespace"]),
      ("resources", resources), ("selector", labelSelector)])

def claimTemplate : Shape := .record [("metadata", Metadata.shape), ("spec", claimSpec)]

def remoteVolumes : List (String × Shape) :=
  [("awsElasticBlockStore", readable ["fsType", "volumeID"] [("partition", .int 32)]),
    ("azureDisk", readable ["cachingMode", "diskName", "diskURI", "fsType", "kind"] []),
    ("azureFile", readable ["secretName", "shareName"] []),
    ("cephfs", readable ["path", "secretFile", "user"]
      [("monitors", .list .text), ("secretRef", secretRef)]),
    ("cinder", readable ["fsType", "volumeID"] [("secretRef", secretRef)]),
    ("csi", readable ["driver", "fsType"]
      [("nodePublishSecretRef", secretRef), ("volumeAttributes", .map .text)]),
    ("fc", readable ["fsType"]
      ([("lun", .int 32)] ++ each (.list .text) ["targetWWNs", "wwids"])),
    ("flexVolume", readable ["driver", "fsType"]
      [("options", .map .text), ("secretRef", secretRef)]),
    ("flocker", texts ["datasetName", "datasetUUID"]),
    ("gcePersistentDisk", readable ["fsType", "pdName"] [("partition", .int 32)]),
    ("glusterfs", readable ["endpoints", "path"] []),
    ("iscsi", readable ["fsType", "initiatorName", "iqn", "iscsiInterface", "targetPortal"]
      (each .bool ["chapAuthDiscovery", "chapAuthSession"] ++
        [("lun", .int 32), ("portals", .list .text), ("secretRef", secretRef)])),
    ("nfs", readable ["path", "server"] []),
    ("photonPersistentDisk", texts ["fsType", "pdID"]),
    ("portworxVolume", readable ["fsType", "volumeID"] []),
    ("quobyte", readable ["group", "registry", "tenant", "user", "volume"] []),
    ("rbd", readable ["fsType", "image", "keyring", "pool", "user"]
      [("monitors", .list .text), ("secretRef", secretRef)]),
    ("scaleIO", readable ["fsType", "gateway", "protectionDomain", "storageMode", "storagePool",
        "system", "volumeName"]
      [("secretRef", secretRef), ("sslEnabled", .bool)]),
    ("storageos", readable ["fsType", "volumeName", "volumeNamespace"] [("secretRef", secretRef)]),
    ("vsphereVolume", texts ["fsType", "storagePolicyID", "storagePolicyName", "volumePath"])]

def volume : Shape := .record
  (remoteVolumes ++
    [("name", .text),
      ("configMap", .record
        [("defaultMode", .int 32), ("items", keyPaths), ("name", .text), ("optional", .bool)]),
      ("downwardAPI", .record [("defaultMode", .int 32), ("items", downwardFiles)]),
      ("emptyDir", texts ["medium", "sizeLimit"]),
      ("ephemeral", .record [("volumeClaimTemplate", claimTemplate)]),
      ("gitRepo", texts ["directory", "repository", "revision"]),
      ("hostPath", texts ["path", "type"]),
      ("persistentVolumeClaim", readable ["claimName"] []),
      ("projected", .record [("defaultMode", .int 32), ("sources", .list projection)]),
      ("secret", .record
        [("defaultMode", .int 32), ("items", keyPaths), ("optional", .bool),
          ("secretName", .text)])])

/-! ### Pods -/

def dnsConfig : Shape := .record
  (each (.list .text) ["nameservers", "searches"] ++
    [("options", .list (texts ["name", "value"]))])

def resourceClaim : Shape := .record
  [("name", .text), ("source", texts ["resourceClaimName", "resourceClaimTemplateName"])]

def podSpec : Shape := .record
  (each .text ["dnsPolicy", "hostname", "nodeName", "preemptionPolicy", "priorityClassName",
      "restartPolicy", "runtimeClassName", "schedulerName", "serviceAccount",
      "serviceAccountName", "subdomain"] ++
    each .bool ["automountServiceAccountToken", "enableServiceLinks", "hostIPC", "hostNetwork",
      "hostPID", "hostUsers", "setHostnameAsFQDN", "shareProcessNamespace"] ++
    each (.int 64) ["activeDeadlineSeconds", "terminationGracePeriodSeconds"] ++
    each (.map .text) ["nodeSelector", "overhead"] ++
    each (.list (.record container)) ["containers", "initContainers"] ++
    [("affinity", affinity), ("dnsConfig", dnsConfig),
      ("ephemeralContainers", .list (.record (container ++ [("targetContainerName", .text)]))),
      ("hostAliases", .list (.record [("hostnames", .list .text), ("ip", .text)])),
      ("imagePullSecrets", .list secretRef), ("os", texts ["name"]), ("priority", .int 32),
      ("readinessGates", .list (texts ["conditionType"])),
      ("resourceClaims", .list resourceClaim), ("schedulingGates", .list (texts ["name"])),
      ("securityContext", podSecurity), ("tolerations", .list toleration),
      ("topologySpreadConstraints", .list spreadConstraint), ("volumes", .list volume)])

def podCondition : Shape := .record
  (each .text ["message", "reason", "status", "type"] ++
    each .time ["lastProbeTime", "lastTransitionTime"])

def containerState : Shape := .record
  [("running", .record [("startedAt", .time)]),
    ("terminated", .record
      (each .text ["containerID", "message", "reason"] ++ each (.int 32) ["exitCode", "signal"] ++
        each .time ["finishedAt", "startedAt"])),
    ("waiting", texts ["message", "reason"])]

def containerStatus : Shape := .record
  (each .text ["containerID", "image", "imageID", "name"] ++ each .bool ["ready", "started"] ++
    each containerState ["lastState", "state"] ++
    [("allocatedResources", .map .text), ("resources", resources), ("restartCount", .int 32)])

def podStatus : Shape := .record
  (each .text ["hostIP", "message", "nominatedNodeName", "phase", "podIP", "qosClass", "reason",
      "resize"] ++
    each (.list (texts ["ip"])) ["hostIPs", "podIPs"] ++
    each (.list containerStatus)
      ["containerStatuses", "ephemeralContainerStatuses", "initContainerStatuses"] ++
    [("conditions", .list podCondition),
      ("resourceClaimStatuses", .list (texts ["name", "resourceClaimName"])),
      ("startTime", .time)])

/-! ### The schema -/

/-- Whether an object can be of a kind and its specification and its status have their forms. -/
def fits (kind : String) (spec status : Shape) (o : Object) : Bool :=
  (match o.apiKind with
    | some (v, k) => v == "v1" && k == kind
    | none => true) &&
  Shape.acceptsFields [("spec", spec), ("status", status)] o.content

def v1 : Schema where
  node := fits "Node" nodeSpec nodeStatus
  pod := fits "Pod" podSpec podStatus

end Schema

end SessionWatch.Cluster
