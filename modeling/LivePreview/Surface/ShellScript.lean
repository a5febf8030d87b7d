namespace LivePreview.Surface

def shellScriptLines : List String := [
  "",
  "(function () \x7b",
  "  'use strict';",
  "  var cfg = window.__LANTERN_SHELL__;",
  "  var base = '/sessions/' + encodeURIComponent(cfg.session);",
  "  var stage = document.getElementById('stage');",
  "  var overlays = \x7b",
  "    loading: document.getElementById('loading'),",
  "    empty: document.getElementById('empty'),",
  "    error: document.getElementById('error')",
  "  \x7d;",
  "  var errorText = document.getElementById('error-text');",
  "  var dismissed = null;",
  "  var current = null;",
  "  var pending = null;",
  "  var outbox = Promise.resolve();",
  "",
  "  // Signals are posted one at a time so the host sees them in order.",
  "  function send(msg) \x7b",
  "    outbox = outbox.then(function () \x7b",
  "      return fetch(base + '/guest', \x7b",
  "        method: 'POST',",
  "        headers: \x7b 'Content-Type': 'application/json' \x7d,",
  "        body: JSON.stringify(msg)",
  "      \x7d).catch(function () \x7b\x7d);",
  "    \x7d);",
  "  \x7d",
  "",
  "  function entryFor(win) \x7b",
  "    if (pending && pending.frame && pending.frame.contentWindow === win) return pending;",
  "    if (current && current.frame.contentWindow === win) return current;",
  "    return null;",
  "  \x7d",
  "",
  "  window.addEventListener('message', function (event) \x7b",
  "    var data = event.data;",
  "    if (!data || typeof data !== 'object' || !data.__lantern) return;",
  "    var entry = entryFor(event.source);",
  "    if (!entry) return;",
  "    var msg = \x7b\x7d;",
  "    for (var k in data.__lantern) msg[k] = data.__lantern[k];",
  "    msg.generation = entry.generation;",
  "    send(msg);",
  "  \x7d);",
  "",
  "  function drop(entry) \x7b",
  "    if (entry && entry.frame && entry.frame.parentNode) entry.frame.parentNode.removeChild(entry.frame);",
  "  \x7d",
  "",
  "  function teardown() \x7b",
  "    drop(pending);",
  "    drop(current);",
  "    pending = null;",
  "    current = null;",
  "  \x7d",
  "",
  "  function promote(entry) \x7b",
  "    var old = current;",
  "    current = entry;",
  "    pending = null;",
  "    entry.frame.classList.add('visible');",
  "    if (old) setTimeout(function () \x7b drop(old); \x7d, cfg.crossfadeMs);",
  "  \x7d",
  "",
  "  function load(generation) \x7b",
  "    if ((current && current.generation === generation) || (pending && pending.generation === generation)) return;",
  "    drop(pending);",
  "    var entry = \x7b generation: generation, frame: null \x7d;",
  "    pending = entry;",
  "    fetch(base + '/doc/' + generation, \x7b cache: 'no-store' \x7d)",
  "      .then(function (res) \x7b",
  "        if (!res.ok) throw new Error('document ' + generation + ': HTTP ' + res.status);",
  "        return res.text();",
  "      \x7d)",
  "      .then(function (html) \x7b",
  "        if (pending !== entry) return;",
  "        var frame = document.createElement('iframe');",
  "        frame.setAttribute('sandbox', 'allow-scripts allow-forms allow-modals allow-popups');",
  "        frame.setAttribute('title', 'preview');",
  "        entry.frame = frame;",
  "        frame.addEventListener('load', function () \x7b",
  "          if (pending !== entry) return;",
  "          send(\x7b generation: generation, kind: 'loaded' \x7d);",
  "          promote(entry);",
  "        \x7d);",
  "        frame.srcdoc = html;",
  "        stage.appendChild(frame);",
  "      \x7d)",
  "      .catch(function (err) \x7b",
  "        if (pending === entry) pending = null;",
  "        send(\x7b generation: generation, kind: 'load-failed', error: String((err && err.message) || err) \x7d);",
  "      \x7d);",
  "  \x7d",
  "",
  "  function show(name, on) \x7b",
  "    overlays[name].classList.toggle('on', !!on);",
  "  \x7d",
  "",
  "  function paint(view) \x7b",
  "    stage.classList.toggle('fading', view.crossfade);",
  "    show('empty', view.state === 'idle');",
  "    overlays.empty.textContent = view.empty_message || '';",
  "    show('loading', view.state === 'loading' && !view.error);",
  "    if (view.error !== dismissed) dismissed = null;",
  "    show('error', !!view.error && dismissed === null);",
  "    errorText.textContent = view.error || '';",
  "  \x7d",
  "",
  "  document.getElementById('dismiss').addEventListener('click', function () \x7b",
  "    dismissed = errorText.textContent;",
  "    show('error', false);",
  "  \x7d);",
  "",
  "  var source = new EventSource(base + '/events');",
  "  source.onmessage = function (event) \x7b",
  "    var msg = JSON.parse(event.data);",
  "    if (msg.type === 'load') load(msg.generation);",
  "    else if (msg.type === 'teardown') teardown();",
  "    else if (msg.type === 'view') paint(msg);",
  "  \x7d;",
  "\x7d)();",
  ""]

def shellScript : String :=
  "\n".intercalate shellScriptLines

end LivePreview.Surface
